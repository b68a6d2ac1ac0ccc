import RangeRead.Proofs.Store.Window

/-!
# Ranges that were started cannot be pinned

A range that holds the stream of its request refuses to be pinned, and one that holds none is moved
(`exchange_pin_started`, `exchange_pin_moved`). So the window of a range is settled as soon as its request is granted,
up to when it is closed (`pins_until_closed`). Closing lets go of the stream, so that a closed range is moved like a new
one although nothing is read from it any more (`closed_range_moved`).
-/

namespace RangeRead.Store

variable {σ C : Type} {store : Store σ C} {object : ObjectHandle} {start stop : Int} {story : Story}
  {r : StoreRange C}

/-! ## What exchanges keep -/

/-- A closed range refuses to be read, and stays as it is. -/
theorem exchange_read_closed (h : r.closed = true) (buffer : ByteArray) (s : σ) :
    store.exchange (.readInto buffer) r s = (⟨.readInto buffer, .filled (.error .closedRange), []⟩, r, s) := by
  rw [exchange_readInto]
  unfold readRange
  rw [if_pos h]
  rfl

/-- The window of a range moves as its exchanges tell. -/
theorem exchange_pinned (store : Store σ C) (call : RangeCall) (r : StoreRange C) (s : σ) :
    (store.exchange call r s).1.pinned (r.start, r.stop) =
      ((store.exchange call r s).2.1.start, (store.exchange call r s).2.1.stop) := by
  cases call with
  | pin pin offset =>
    by_cases hstream : r.stream = none
    · rw [exchange_pin_moved hstream]
      cases pin <;> rfl
    · rw [exchange_pin_started hstream]
      cases pin <;> rfl
  | readInto buffer =>
    obtain ⟨-, -, hstart, hstop⟩ := (@readsRange_readRange _ _ store.heard buffer.size r { behind := s }).same
    rw [exchange_readInto]
    dsimp only
    rw [hstart, hstop]
    rfl
  | close => rfl

/-- A closed range holds no stream. -/
theorem exchange_closed (h : r.closed = true → r.stream = none) (call : RangeCall) (s : σ)
    (hclosed : (store.exchange call r s).2.1.closed = true) : (store.exchange call r s).2.1.stream = none := by
  cases call with
  | pin pin offset =>
    by_cases hstream : r.stream = none
    · rw [exchange_pin_moved hstream]
      cases pin <;> exact hstream
    · rw [exchange_pin_started hstream] at hclosed
      exact absurd (h hclosed) hstream
  | readInto buffer =>
    have hbefore : r.closed = true :=
      (@readsRange_readRange _ _ store.heard buffer.size r { behind := s }).same.2.1.symm.trans hclosed
    rw [exchange_read_closed hbefore]
    exact h hbefore
  | close => rfl

/-- A range that is not closed holds a stream if and only if its request was granted. -/
theorem Follows.stream_iff (h : Follows object start stop story r) (hopen : ¬ story.IsClosed) :
    r.stream ≠ none ↔ story.grants ≠ [] := by
  have hunderway := h.underway (by simpa [← h.closed] using hopen)
  unfold Story.grants
  constructor
  · intro hstream
    rw [(hunderway.made hstream).1]
    exact List.cons_ne_nil _ _
  · intro hgrants hstream
    exact hgrants (hunderway.unmade hstream).1

/-! ## Started ranges -/

/-- How a range that was opened from `start` to `stop` answers to being pinned, after its story. -/
structure PinsUntilClosed (store : Store σ C) (start stop : Int) (story : Story) (r : StoreRange C) : Prop where
  window : story.window start stop = (r.start, r.stop)
  position : ¬ story.IsClosed → r.position = r.start + story.delivered.size
  /-- The window is the one that the request was granted for. -/
  settled : story.grants ≠ [] → ¬ story.IsClosed → story.grants = [(r.start, r.stop)]
  /-- From the granted request on, a range that is not closed refuses to be pinned, and stays as it is. -/
  refuses : story.grants ≠ [] → ¬ story.IsClosed → ∀ (pin : Pin) (offset : Int) (s : σ),
    (ReadError.startedRange pin).kind = some .system ∧ store.exchange (.pin pin offset) r s =
      (⟨.pin pin offset, .pinned (.error (.startedRange pin)), []⟩, r, s)
  moves : story.grants = [] ∨ story.IsClosed → ∀ (pin : Pin) (offset : Int) (s : σ),
    store.exchange (.pin pin offset) r s = (⟨.pin pin offset, .pinned (.ok ()), []⟩, moved pin offset r, s)
  closed : story.IsClosed → ∀ (buffer : ByteArray) (s : σ),
    store.exchange (.readInto buffer) r s = (⟨.readInto buffer, .filled (.error .closedRange), []⟩, r, s)

/-- **A range cannot be pinned from its granted request on until it is closed**, whatever the store answers and whatever
is called; before and afterwards it can. -/
theorem pins_until_closed (hopen : openRange object start stop = .ok r) (calls : List RangeCall) (s : σ) :
    PinsUntilClosed store start stop (store.story calls r s).1 (store.story calls r s).2.1 := by
  have hfollows : Follows object start stop (store.story calls r s).1 (store.story calls r s).2.1 :=
    story_keeps store (fun _ _ s call h => h.exchange call s) calls s (openRange_follows hopen)
  have hstart : Story.window start stop [] = (r.start, r.stop) ∧ r.closed = false := by
    unfold openRange at hopen
    split at hopen
    · cases hopen
      exact ⟨rfl, rfl⟩
    · cases hopen
  have hwindow : Story.window start stop (store.story calls r s).1 =
      ((store.story calls r s).2.1.start, (store.story calls r s).2.1.stop) := by
    refine story_keeps store (P := fun story r => story.window start stop = (r.start, r.stop))
      (fun story r s call h => ?_) calls s hstart.1
    rw [Story.window_snoc, h]
    exact exchange_pinned store call r s
  have hreleased : (store.story calls r s).2.1.closed = true → (store.story calls r s).2.1.stream = none :=
    @story_keeps _ _ store (fun _ r => r.closed = true → r.stream = none)
      (fun _ _ s call h hclosed => exchange_closed h call s hclosed) calls [] r s (by simp [hstart.2])
  generalize (store.story calls r s).1 = story at hfollows hwindow
  generalize (store.story calls r s).2.1 = r' at hfollows hwindow hreleased
  have hunderway : ¬ story.IsClosed → Underway (story.window start stop) story.hearings story.delivered r' :=
    fun hnot => hfollows.underway (by simpa [← hfollows.closed] using hnot)
  refine ⟨hwindow, fun hnot => (hunderway hnot).position, fun hgrants hnot => ?_,
    fun hgrants hnot pin offset s => ?_, fun hmoves pin offset s => ?_, fun hclosed buffer s => ?_⟩
  · rw [← hwindow]
    exact ((hunderway hnot).made ((hfollows.stream_iff hnot).mpr hgrants)).1
  · exact ⟨by cases pin <;> rfl, exchange_pin_started ((hfollows.stream_iff hnot).mpr hgrants) pin offset s⟩
  · refine exchange_pin_moved ?_ pin offset s
    by_cases hclosed : story.IsClosed
    · exact hreleased (hfollows.closed.mpr hclosed)
    · have hnone := hmoves.resolve_right hclosed
      exact Decidable.not_not.mp fun hstream => (hfollows.stream_iff hclosed).mp hstream hnone
  · exact exchange_read_closed (hfollows.closed.mpr hclosed) buffer s

/-- So it is for a range in memory that is pinned, read and pinned in vain. -/
theorem pins_until_closed_memory :
    let object : ObjectHandle := { path := "object", size := 6 }
    let r : StoreRange Memory.Stream := { object := object, start := 0, stop := 6, position := 0 }
    let after := (Memory.store 2).story [.pin .seek 1, .readInto ⟨#[0, 0]⟩, .pin .limit 2] r
      [("object", ⟨#[1, 2, 3, 4, 5, 6]⟩)]
    openRange object 0 6 = .ok r ∧ after.1.grants = [(1, 6)] ∧ after.1.delivered = ⟨#[2, 3]⟩ ∧
      after.2.1.position = 3 ∧ PinsUntilClosed (Memory.store 2) 0 6 after.1 after.2.1 := by
  have hopen : openRange { path := "object", size := 6 } 0 6 =
      .ok (⟨{ path := "object", size := 6 }, 0, 6, 0, none, .empty, 0, false⟩ : StoreRange Memory.Stream) := rfl
  exact ⟨hopen, by decide +kernel, by decide +kernel, by decide +kernel, pins_until_closed hopen _ _⟩

/-- A range that has delivered two bytes of its window is closed and then moved, so that it reports a position that is
not the start of its window and the bytes delivered. -/
theorem closed_range_moved :
    let object : ObjectHandle := { path := "object", size := 6 }
    let r : StoreRange Memory.Stream := { object := object, start := 0, stop := 6, position := 0 }
    let before := (Memory.store 2).story [.readInto ⟨#[0, 0]⟩, .close] r [("object", ⟨#[1, 2, 3, 4, 5, 6]⟩)]
    let sought := (Memory.store 2).exchange (.pin .seek 4) before.2.1 before.2.2
    let story := before.1 ++ [sought.1]
    openRange object 0 6 = .ok r ∧ before.1.grants = [(0, 6)] ∧ sought.1.answer = .pinned (.ok ()) ∧
      before.2.1.position = 2 ∧ sought.2.1.position = 4 ∧
      sought.2.1.position ≠ (Story.window 0 6 story).1 + story.delivered.size :=
  ⟨rfl, by decide +kernel, rfl, by decide +kernel, by decide +kernel, by decide +kernel⟩

end RangeRead.Store
