import RangeRead.Proofs.Store.Memory
import RangeRead.Proofs.Store.Underway

/-!
# What a range delivers

Every exchange with a range keeps what is known of it and its story (`Follows.exchange`). Hence a range delivers no more
than the first bytes that arrive, up to the length of its window, and all of them before it tells its end; it makes at
most one request that is granted, and stands where what it has delivered ends (`keeps_to_window`).
-/

namespace RangeRead.Store

variable {σ C : Type} {store : Store σ C} {spent : C → Prop} {r : StoreRange C} {s : σ} {reply : Reply}

/-! ## Stories -/

/-- Whether at most one request was granted, and what was delivered are the first bytes that arrived, no more than fit
into the window that it was granted for. -/
def FromOneRequest (story : Story) : Prop :=
  (story.grants = [] ∧ story.delivered = .empty) ∨ ∃ w rest, story.grants = [w] ∧
    story.delivered ++ rest = story.response.extract 0 (w.2 - w.1).toNat

/-- What is known of a range that was opened on `object` from `start` to `stop`, after its story. -/
structure Follows (object : ObjectHandle) (start stop : Int) (story : Story) (r : StoreRange C) : Prop where
  object : r.object = object
  closed : r.closed = true ↔ story.IsClosed
  underway : r.closed = false → Underway (story.window start stop) story.hearings story.delivered r
  bounded : FromOneRequest story

variable {object : ObjectHandle} {start stop : Int} {story : Story}

theorem Underway.fromOneRequest (h : Underway (story.window start stop) story.hearings story.delivered r) :
    FromOneRequest story := by
  by_cases hstream : r.stream = none
  · exact .inl ⟨(h.unmade hstream).1, (h.fresh hstream).1⟩
  · exact .inr ⟨story.window start stop, _, (h.made hstream).1, h.truncated hstream⟩

/-- An exchange that neither hears nor hands out anything changes nothing about what was requested and delivered. -/
theorem FromOneRequest.quiet (h : FromOneRequest story) {x : Exchange} (hhearings : x.hearings = [])
    (hdelivered : x.delivered = .empty) : FromOneRequest (story ++ [x]) := by
  have hsame : Story.hearings (story ++ [x]) = story.hearings := by simp [hhearings]
  have hdelivered' : Story.delivered (story ++ [x]) = story.delivered := by simp [hdelivered]
  unfold FromOneRequest Story.grants Story.response
  rw [hsame, hdelivered']
  exact h

/-! ## Pinning and closing -/

/-- The range with its start or its end at an offset. -/
def moved (pin : Pin) (offset : Int) (r : StoreRange C) : StoreRange C :=
  match pin with
  | .seek => { r with start := offset, position := offset }
  | .limit => { r with stop := offset }

theorem exchange_pin_started (h : r.stream ≠ none) (pin : Pin) (offset : Int) (s : σ) :
    store.exchange (.pin pin offset) r s =
      (⟨.pin pin offset, .pinned (.error (.startedRange pin)), []⟩, r, s) := by
  obtain ⟨stream, hstream⟩ := Option.ne_none_iff_exists'.mp h
  simp [exchange, callRange, pinRange, hstream]

theorem exchange_pin_moved (h : r.stream = none) (pin : Pin) (offset : Int) (s : σ) :
    store.exchange (.pin pin offset) r s = (⟨.pin pin offset, .pinned (.ok ()), []⟩, moved pin offset r, s) := by
  cases pin <;> simp [exchange, callRange, pinRange, h, moved]

theorem Underway.pinned {w : Int × Int} {heard : List Hearing} {handed : ByteArray}
    (h : Underway w heard handed r) (hstream : r.stream = none) (first last : Int) :
    Underway (first, last) heard handed { r with start := first, stop := last, position := first } := by
  obtain ⟨rfl, -, -⟩ := h.fresh hstream
  exact ⟨rfl, (Int.add_zero _).symm, h.stock, fun hsome => absurd hstream hsome, fun _ => h.unmade hstream⟩

theorem Follows.pin (h : Follows object start stop story r) (pin : Pin) (offset : Int) (s : σ) :
    Follows object start stop (story ++ [(store.exchange (.pin pin offset) r s).1])
      (store.exchange (.pin pin offset) r s).2.1 := by
  have hbounded : FromOneRequest (story ++ [(store.exchange (.pin pin offset) r s).1]) := h.bounded.quiet rfl rfl
  by_cases hstream : r.stream = none
  · rw [exchange_pin_moved hstream] at hbounded ⊢
    cases pin with
    | seek =>
      refine ⟨h.object, by simpa [moved] using h.closed, fun hopen => ?_, hbounded⟩
      have hunderway := h.underway hopen
      simpa [moved, Exchange.pinned, Exchange.delivered, hunderway.window] using
        hunderway.pinned hstream offset r.stop
    | limit =>
      refine ⟨h.object, by simpa [moved] using h.closed, fun hopen => ?_, hbounded⟩
      have hunderway := h.underway hopen
      have hposition := (hunderway.fresh hstream).2.2
      simpa [moved, Exchange.pinned, Exchange.delivered, hunderway.window, hposition] using
        hunderway.pinned hstream r.start offset
  · rw [exchange_pin_started hstream] at hbounded ⊢
    refine ⟨h.object, by simpa using h.closed, fun hopen => ?_, hbounded⟩
    simpa [Exchange.pinned, Exchange.delivered] using h.underway hopen

theorem Follows.close (h : Follows object start stop story r) (s : σ) :
    Follows object start stop (story ++ [(store.exchange .close r s).1]) (store.exchange .close r s).2.1 := by
  have hexchange : store.exchange .close r s = (⟨.close, .closed, []⟩, closeRange r, s) := rfl
  rw [hexchange]
  refine ⟨h.object, ?_, nofun, h.bounded.quiet rfl rfl⟩
  simp [closeRange]

/-! ## Reading -/

theorem exchange_readInto (buffer : ByteArray) (r : StoreRange C) (s : σ) :
    store.exchange (.readInto buffer) r s =
      (⟨.readInto buffer, .filled ((store.heard.readRange buffer.size r { behind := s }).1.into buffer),
        (store.heard.readRange buffer.size r { behind := s }).2.2.hearings⟩,
        (store.heard.readRange buffer.size r { behind := s }).2.1,
        (store.heard.readRange buffer.size r { behind := s }).2.2.behind) :=
  rfl

theorem into_ended (buffer : ByteArray) : (Reply.endOfStream .empty).into buffer = .ok (.endOfStream, buffer) := by
  unfold Reply.into
  dsimp only
  rw [ByteArray.empty_append]
  exact congrArg (fun bytes => Except.ok (ReadCount.endOfStream, bytes)) ByteArray.extract_zero_size

theorem into_delivered (buffer bytes : ByteArray) : (Reply.delivered bytes 0).into buffer =
    .ok (.bytes bytes.size, bytes ++ buffer.extract bytes.size buffer.size) := by
  unfold Reply.into
  dsimp only
  rw [Int.add_zero]

/-- What a caller is handed out is what the range delivered. -/
theorem Hands.delivered_eq {room : Nat} {left : Int} {bytes : ByteArray} (h : Hands room left bytes reply)
    (buffer : ByteArray) (call : RangeCall) (hearings : List Hearing) :
    Exchange.delivered ⟨call, .filled (reply.into buffer), hearings⟩ = bytes := by
  cases h with
  | failed e => rfl
  | ended => rfl
  | delivered hsome hroom hleft =>
    unfold Exchange.delivered
    rw [into_delivered]
    dsimp only
    rw [Int.toNat_natCast, extract_append_of_le (Nat.le_refl _), ByteArray.extract_zero_size]

/-- A range that is closed or has no room to read into does nothing. -/
theorem exchange_idle {buffer : ByteArray} (h : r.closed = true ∨ buffer.size = 0) (s : σ) :
    ∃ reply : Reply, store.exchange (.readInto buffer) r s =
        (⟨.readInto buffer, .filled (reply.into buffer), []⟩, r, s) ∧
      (reply = .failed .closedRange ∨ reply = .delivered .empty 0) := by
  rw [exchange_readInto]
  unfold readRange
  by_cases hclosed : r.closed
  · rw [if_pos hclosed]
    exact ⟨_, rfl, .inl rfl⟩
  · rw [if_neg hclosed, if_pos (h.resolve_left hclosed)]
    exact ⟨_, rfl, .inr rfl⟩

theorem Follows.readInto (h : Follows object start stop story r) (buffer : ByteArray) (s : σ) :
    Follows object start stop (story ++ [(store.exchange (.readInto buffer) r s).1])
      (store.exchange (.readInto buffer) r s).2.1 := by
  by_cases hidle : r.closed = true ∨ buffer.size = 0
  · obtain ⟨reply, hexchange, hreply⟩ := @exchange_idle _ _ store _ _ hidle s
    have hnothing : Exchange.delivered ⟨.readInto buffer, .filled (reply.into buffer), []⟩ = .empty := by
      rcases hreply with rfl | rfl
      · rfl
      · exact ByteArray.extract_same
    rw [hexchange]
    refine ⟨h.object, ?_, fun hopen => ?_, h.bounded.quiet rfl hnothing⟩
    · simpa using h.closed
    · simpa [Exchange.pinned, hnothing] using h.underway hopen
  · have hopen : r.closed = false := by simpa using fun hclosed => hidle (.inl hclosed)
    have hwant : 0 < buffer.size := Nat.pos_of_ne_zero fun hnone => hidle (.inr hnone)
    have hread := @readsRange_readRange _ _ store.heard buffer.size r { behind := s }
    rw [exchange_readInto]
    generalize store.heard.readRange buffer.size r { behind := s } = read at hread ⊢
    obtain ⟨reply, r', s'⟩ := read
    dsimp only at hread ⊢
    obtain ⟨hobject, hclosed, -⟩ := hread.same
    have hunderway : Underway (story.window start stop) (story.hearings ++ []) story.delivered r := by
      rw [List.append_nil]
      exact h.underway hopen
    obtain ⟨bytes, hhands, hafter⟩ := hunderway.read hread hwant
    have hstory : Underway
        (Story.window start stop (story ++ [⟨.readInto buffer, .filled (reply.into buffer), s'.hearings⟩]))
        (Story.hearings (story ++ [⟨.readInto buffer, .filled (reply.into buffer), s'.hearings⟩]))
        (Story.delivered (story ++ [⟨.readInto buffer, .filled (reply.into buffer), s'.hearings⟩])) r' := by
      simpa [Exchange.pinned, hhands.delivered_eq] using hafter
    refine ⟨hobject.trans h.object, ?_, fun _ => hstory, hstory.fromOneRequest⟩
    rw [hclosed]
    simpa using h.closed

theorem Follows.exchange (h : Follows object start stop story r) (call : RangeCall) (s : σ) :
    Follows object start stop (story ++ [(store.exchange call r s).1]) (store.exchange call r s).2.1 := by
  cases call with
  | pin pin offset => exact h.pin pin offset s
  | readInto buffer => exact h.readInto buffer s
  | close => exact h.close s

/-- A caller is told the end if the range tells it. -/
theorem tellsEnd_into {call : RangeCall} {hearings : List Hearing} {buffer : ByteArray}
    (h : Exchange.TellsEnd ⟨call, .filled (reply.into buffer), hearings⟩) : ∃ bytes, reply = .endOfStream bytes := by
  obtain ⟨buffer', hanswer⟩ := h
  cases reply with
  | failed e => cases hanswer
  | endOfStream bytes => exact ⟨bytes, rfl⟩
  | delivered bytes excess => cases hanswer

/-- Once the end was told after a request, a range is exhausted until it is closed. -/
theorem Follows.exhausted (hends : store.StaysEnded spent) (h : Follows object start stop story r)
    (hexhausted : r.closed = false → story.ToldEnd → IsExhausted spent r) (call : RangeCall) (s : σ)
    (hopen : (store.exchange call r s).2.1.closed = false)
    (htold : Story.ToldEnd (story ++ [(store.exchange call r s).1])) :
    IsExhausted spent (store.exchange call r s).2.1 := by
  have hafter : Follows object start stop _ (store.exchange call r s).2.1 := h.exchange call s
  rw [Story.toldEnd_snoc] at htold
  cases call with
  | pin pin offset =>
    rcases htold with htold | ⟨⟨buffer, hanswer⟩, -⟩
    · have hsame : (store.exchange (.pin pin offset) r s).2.1 = (pinRange pin offset r).2 := rfl
      rw [hsame] at hopen ⊢
      have hbefore : r.closed = false := by
        unfold pinRange at hopen
        split at hopen
        · exact hopen
        · cases pin <;> exact hopen
      obtain ⟨stream, hstream, hrest⟩ := hexhausted hbefore htold
      have hstarted : pinRange pin offset r = (.error (.startedRange pin), r) := by
        unfold pinRange
        rw [hstream]
      rw [hstarted]
      exact ⟨stream, hstream, hrest⟩
    · cases hanswer
  | close => cases hopen
  | readInto buffer =>
    have hread := @readsRange_readRange _ _ store.heard buffer.size r { behind := s }
    have hbefore : r.closed = false := hread.same.2.1.symm.trans hopen
    rcases htold with htold | ⟨htells, hgrants⟩
    · by_cases hbuffer : buffer.size = 0
      · obtain ⟨reply, hidle, -⟩ := @exchange_idle _ _ store r buffer (.inr hbuffer) s
        rw [hidle]
        exact hexhausted hbefore htold
      · obtain ⟨r', s', hended, hstill⟩ := (hexhausted hbefore htold).read hends.heard hbefore
          (Nat.pos_of_ne_zero hbuffer) { behind := s }
        rw [exchange_readInto, hended]
        exact hstill
    · obtain ⟨bytes, hreply⟩ := tellsEnd_into htells
      refine hread.exhausted hends.heard hreply fun hstream => hgrants ?_
      exact ((hafter.underway hopen).unmade hstream).1

theorem openRange_follows {r : StoreRange C} (h : openRange object start stop = .ok r) :
    Follows object start stop [] r := by
  unfold openRange at h
  split at h
  · cases h
    refine ⟨rfl, ?_, fun _ => ?_, .inl ⟨rfl, rfl⟩⟩
    · simp [Story.IsClosed]
    · exact ⟨rfl, (Int.add_zero _).symm, rfl, fun hsome => absurd rfl hsome, fun _ => ⟨rfl, rfl⟩⟩
  · cases h

/-- How a range may answer a read into a buffer that is not empty: it raises an error, or tells the end, or delivers
some bytes, at most as many as the buffer has room for and as are left of the window, and says how many. -/
inductive Answers (buffer : ByteArray) (left : Int) : RangeAnswer → Prop
  | raises (e : ReadError) : Answers buffer left (.filled (.error e))
  | ends : Answers buffer left (.filled (.ok (.endOfStream, buffer)))
  | delivers (bytes : ByteArray) (hsome : 0 < bytes.size) (hroom : bytes.size ≤ buffer.size)
      (hleft : bytes.size ≤ left) :
    Answers buffer left (.filled (.ok (.bytes bytes.size, bytes ++ buffer.extract bytes.size buffer.size)))

/-- What can be said of a range `r` that was opened on `object` from `start` to `stop` and of its story, and of what it
answers next, in whatever state the store is then. -/
structure KeepsToWindow (store : Store σ C) (object : ObjectHandle) (start stop : Int) (story : Story)
    (r : StoreRange C) : Prop where
  /-- At most one request was granted. -/
  once : story.grants.length ≤ 1
  /-- Requests are for the window in force, unless that is empty or the range is closed. -/
  asks : ∀ {call s path first last version granted},
    .asked path first last version granted ∈ (store.exchange call r s).1.hearings →
      path = object.path ∧ version = object.version ∧ (first, last) = story.window start stop ∧ first < last ∧
        ¬ story.IsClosed
  /-- What was delivered are the first bytes that arrived, no more than fit into the window they were requested for. -/
  delivers : (story.grants = [] → story.delivered = .empty) ∧ ∀ w ∈ story.grants,
    ∃ rest, story.delivered ++ rest = story.response.extract 0 (w.2 - w.1).toNat
  position : ¬ story.IsClosed → r.position = (story.window start stop).1 + story.delivered.size
  answers : ∀ {buffer s}, 0 < buffer.size →
    Answers buffer ((story.window start stop).2 - r.position) (store.exchange (.readInto buffer) r s).1.answer
  /-- Where streams stay ended, a range that has told its end after its request has delivered all that arrived, up to
  the length of the window, and tells the end until it is closed. -/
  ends : ∀ {spent}, store.StaysEnded spent → story.ToldEnd → ¬ story.IsClosed →
    (∀ w ∈ story.grants, story.delivered = story.response.extract 0 (w.2 - w.1).toNat) ∧
      ∀ {buffer s}, 0 < buffer.size →
        (store.exchange (.readInto buffer) r s).1.answer = .filled (.ok (.endOfStream, buffer))

theorem Follows.asks (h : Follows object start stop story r) {call : RangeCall} {path : String} {first last : Int}
    {version : Option String} {granted : Bool}
    (hasked : .asked path first last version granted ∈ (store.exchange call r s).1.hearings) :
    path = object.path ∧ version = object.version ∧ (first, last) = story.window start stop ∧ first < last ∧
      ¬ story.IsClosed := by
  cases call with
  | pin pin offset => cases hasked
  | close => cases hasked
  | readInto buffer =>
    by_cases hclosed : r.closed = true
    · obtain ⟨reply, hidle, -⟩ := @exchange_idle _ _ store r buffer (.inl hclosed) s
      rw [hidle] at hasked
      cases hasked
    · have hread := @readsRange_readRange _ _ store.heard buffer.size r { behind := s }
      obtain ⟨rfl, rfl, hwindow, hstream, hlt⟩ := hread.asks rfl hasked
      have hunderway := h.underway (by simpa using hclosed)
      have hposition := (hunderway.fresh hstream).2.2
      cases hwindow
      refine ⟨by rw [h.object], by rw [h.object], hunderway.window.symm, by omega, fun hstory => hclosed ?_⟩
      exact h.closed.mpr hstory

theorem Follows.answers (h : Follows object start stop story r) {buffer : ByteArray} (hbuffer : 0 < buffer.size) :
    Answers buffer ((story.window start stop).2 - r.position) (store.exchange (.readInto buffer) r s).1.answer := by
  rw [exchange_readInto]
  by_cases hclosed : r.closed = true
  · unfold readRange
    rw [if_pos hclosed]
    exact .raises _
  · have hread := @readsRange_readRange _ _ store.heard buffer.size r { behind := s }
    have hunderway : Underway (story.window start stop) (story.hearings ++ []) story.delivered r := by
      rw [List.append_nil]
      exact h.underway (by simpa using hclosed)
    obtain ⟨bytes, hhands, -⟩ := hunderway.read hread hbuffer
    rw [hunderway.window]
    dsimp only at hhands ⊢
    generalize (store.heard.readRange buffer.size r { behind := s }).1 = reply at hhands ⊢
    cases hhands with
    | failed e => exact .raises e
    | ended =>
      rw [into_ended]
      exact .ends
    | @delivered bytes hsome hroom hleft =>
      rw [into_delivered]
      exact .delivers bytes hsome hroom hleft

/-- An exhausted range has delivered all that arrived, up to the length of its window. -/
theorem Follows.delivered_all (h : Follows object start stop story r) (hopen : r.closed = false)
    (hexhausted : IsExhausted spent r) {w : Int × Int} (hw : w ∈ story.grants) :
    story.delivered = story.response.extract 0 (w.2 - w.1).toNat := by
  have hunderway := h.underway hopen
  obtain ⟨stream, hstream, hrest⟩ := hexhausted
  have hsome : r.stream ≠ none := by simp [hstream]
  obtain ⟨hgrants, hle⟩ := hunderway.made hsome
  have hwindow : w = story.window start stop := by
    unfold Story.grants at hw
    rwa [hgrants, List.mem_singleton] at hw
  have hposition := hunderway.position
  have hnone : (pendingBytes r).extract 0 ((w.2 - w.1).toNat - story.delivered.size) = .empty := by
    apply ByteArray.size_eq_zero_iff.mp
    rw [ByteArray.size_extract, pendingBytes_size, hwindow, hunderway.window]
    rcases hrest with hend | ⟨hpending, -⟩
    · dsimp only
      omega
    · omega
  have htruncated := hunderway.truncated hsome
  rw [← hwindow, hnone, ByteArray.append_empty] at htruncated
  exact htruncated

theorem Follows.keepsToWindow (h : Follows object start stop story r)
    (hexhausted : ∀ {spent}, store.StaysEnded spent → r.closed = false → story.ToldEnd → IsExhausted spent r) :
    KeepsToWindow store object start stop story r where
  once := by
    rcases h.bounded with ⟨hnone, -⟩ | ⟨w, rest, hone, -⟩
    · simp [hnone]
    · simp [hone]
  asks hasked := h.asks hasked
  delivers := by
    rcases h.bounded with ⟨hnone, hempty⟩ | ⟨w, rest, hone, hdelivered⟩
    · exact ⟨fun _ => hempty, by simp [hnone]⟩
    · rw [hone]
      refine ⟨nofun, fun w' hw' => ⟨rest, ?_⟩⟩
      rw [List.mem_singleton.mp hw']
      exact hdelivered
  position hopen := by
    have hunderway := h.underway (by simpa [← h.closed] using hopen)
    rw [hunderway.window]
    exact hunderway.position
  answers hbuffer := h.answers hbuffer
  ends {spent} hends htold hopen := by
    have hnotClosed : r.closed = false := by simpa [← h.closed] using hopen
    have hspent := hexhausted hends hnotClosed htold
    refine ⟨fun w hw => h.delivered_all hnotClosed hspent hw, fun {buffer s} hbuffer => ?_⟩
    obtain ⟨r', s', hread, -⟩ := hspent.read hends.heard hnotClosed hbuffer { behind := s }
    rw [exchange_readInto, hread, into_ended]

/-- **A range delivers its window, from one request**, whatever the store answers and whatever is called. -/
theorem keeps_to_window {r : StoreRange C} (hopen : openRange object start stop = .ok r) (calls : List RangeCall)
    (s : σ) :
    KeepsToWindow store object start stop (store.story calls r s).1 (store.story calls r s).2.1 := by
  have hfollows : Follows object start stop (store.story calls r s).1 (store.story calls r s).2.1 :=
    story_keeps store (fun _ _ s call h => h.exchange call s) calls s (openRange_follows hopen)
  refine hfollows.keepsToWindow fun {spent} hends => ?_
  have hboth := story_keeps store
    (P := fun story r => Follows object start stop story r ∧ (r.closed = false → story.ToldEnd → IsExhausted spent r))
    (fun _ _ s call h => ⟨h.1.exchange call s, h.1.exhausted hends h.2 call s⟩) calls s
    ⟨openRange_follows hopen, fun _ ⟨before, x, after, hnone, _⟩ => by simp at hnone⟩
  exact hboth.2

/-- In memory streams stay ended. -/
theorem memory_staysEnded (chunkSize : Nat) :
    (Memory.store chunkSize).StaysEnded fun stream => stream.stop ≤ stream.position where
  ended {stream stream' s s'} hnext := by
    unfold Memory.store Memory.send at hnext
    dsimp only at hnext
    split at hnext
    · cases hnext
    · rename_i hend
      cases hnext
      exact Nat.not_lt.mp hend
  stays {stream} s hspent := by
    refine ⟨stream, s, ?_⟩
    unfold Memory.store Memory.send
    dsimp only
    rw [if_neg (Nat.not_lt.mpr hspent)]

/-- So it is for a range in memory that is pinned, read to its end, pinned in vain, and read once more. Streams stay
ended there, so that it goes on to tell its end. -/
theorem keeps_to_window_memory :
    let store := Memory.store 2
    let object : ObjectHandle := { path := "object", size := 6 }
    let r : StoreRange Memory.Stream := { object := object, start := 0, stop := 6, position := 0 }
    let calls : List RangeCall := [.pin .seek 1, .pin .limit 5, .readInto ⟨#[0, 0]⟩, .pin .seek 0,
      .readInto ⟨#[0, 0, 0]⟩, .readInto ⟨#[0, 0, 0]⟩, .readInto ⟨#[0]⟩]
    let objects : Memory.Objects := [("object", ⟨#[1, 2, 3, 4, 5, 6]⟩)]
    let after := store.story calls r objects
    openRange object 0 6 = .ok r ∧ after.1.grants = [(1, 5)] ∧ after.1.delivered = ⟨#[2, 3, 4, 5]⟩ ∧
      after.1.window 0 6 = (1, 5) ∧ after.2.1.position = 5 ∧
      KeepsToWindow store object 0 6 after.1 after.2.1 ∧
      after.1.delivered = after.1.response.extract 0 4 ∧
      ∀ (buffer : ByteArray) (s : Memory.Objects), 0 < buffer.size →
        (store.exchange (.readInto buffer) after.2.1 s).1.answer = .filled (.ok (.endOfStream, buffer)) := by
  have hopen : openRange { path := "object", size := 6 } 0 6 =
      .ok (⟨{ path := "object", size := 6 }, 0, 6, 0, none, .empty, 0, false⟩ : StoreRange Memory.Stream) := rfl
  have hends := (@keeps_to_window _ _ (Memory.store 2) _ _ _ _ hopen [.pin .seek 1, .pin .limit 5, .readInto ⟨#[0, 0]⟩,
    .pin .seek 0, .readInto ⟨#[0, 0, 0]⟩, .readInto ⟨#[0, 0, 0]⟩, .readInto ⟨#[0]⟩]
    [("object", ⟨#[1, 2, 3, 4, 5, 6]⟩)]).ends (memory_staysEnded 2) (by decide +kernel) (by decide +kernel)
  exact ⟨hopen, by decide +kernel, by decide +kernel, by decide +kernel, by decide +kernel, keeps_to_window hopen _ _,
    hends.1 (1, 5) (by decide +kernel), fun _ _ hbuffer => hends.2 hbuffer⟩

end RangeRead.Store
