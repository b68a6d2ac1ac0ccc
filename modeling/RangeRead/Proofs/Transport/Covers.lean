import RangeRead.Proofs.Channel.Step
import RangeRead.Proofs.Transport.Honest

/-!
# Transports that cover others

A transport covers another one if it does with its ranges and states what the other does with the ranges and states
behind them (`Transport.Covers`). Then a channel makes no difference between the two: every operation gives the same
answer, and leaves the same channel but for the handle of its range (`Channel.behind`) and the same state behind
(`perform_behind`, `run_behind`). What is asked of the transport behind holds of the one in front too, of whatever is
known through its ranges and states (`View.through`, `Covers.honest`, `Covers.truthful`, `Covers.reliable`).
-/

namespace RangeRead

variable {σ τ H K ρ α : Type}

/-- Every call of `t'` is the call of `t` on what is behind the range and the state. -/
structure Transport.Covers (t' : Transport τ K) (t : Transport σ H) (handle : K → H) (state : τ → σ) : Prop where
  openRange : ∀ o start stop s, t.openRange o start stop (state s) =
    ((t'.openRange o start stop s).1.map handle, state (t'.openRange o start stop s).2)
  pin : ∀ pin offset h s, t.pin pin offset (handle h) (state s) =
    ((t'.pin pin offset h s).1, handle (t'.pin pin offset h s).2.1, state (t'.pin pin offset h s).2.2)
  read : ∀ want h s, t.read want (handle h) (state s) =
    ((t'.read want h s).1, handle (t'.read want h s).2.1, state (t'.read want h s).2.2)
  close : ∀ h s, t.close (handle h) (state s) = ((t'.close h s).1, state (t'.close h s).2)
  note : ∀ notice s, t.note notice (state s) = state (t'.note notice s)

/-- The open range with the handle behind its own. -/
def OpenRange.behind (handle : K → H) (r : OpenRange K) : OpenRange H := ⟨handle r.handle, r.cursor, r.stop⟩

/-- The channel with the handle behind that of its range. -/
def Channel.behind (handle : K → H) (c : Channel K) : Channel H where
  object := c.object
  options := c.options
  sizing := c.sizing
  position := c.position
  range := c.range.map (·.behind handle)
  closed := c.closed

/-- What a channel works with, with the state behind that of its transport. -/
def World.behind (state : τ → σ) (w : World τ ρ) : World σ ρ := ⟨state w.transport, w.recorder⟩

@[simp] theorem Channel.behind_object (handle : K → H) (c : Channel K) : (c.behind handle).object = c.object := rfl

@[simp] theorem Channel.behind_sizing (handle : K → H) (c : Channel K) : (c.behind handle).sizing = c.sizing := rfl

@[simp] theorem Channel.behind_position (handle : K → H) (c : Channel K) :
    (c.behind handle).position = c.position := rfl

@[simp] theorem Channel.behind_closed (handle : K → H) (c : Channel K) : (c.behind handle).closed = c.closed := rfl

@[simp] theorem Channel.behind_range (handle : K → H) (c : Channel K) :
    (c.behind handle).range = c.range.map (·.behind handle) := rfl

/-- An answer with what is behind the channel and the state that it comes with. -/
def Channel.seen (handle : K → H) (state : τ → σ) (x : α × Channel K × τ) : α × Channel H × σ :=
  (x.1, x.2.1.behind handle, state x.2.2)

namespace Transport.Covers

variable {t' : Transport τ K} {t : Transport σ H} {handle : K → H} {state : τ → σ} (ht : t'.Covers t handle state)
include ht

theorem closeQuietly (o : ObjectHandle) (h : K) (s : τ) :
    t.closeQuietly o (handle h) (state s) = state (t'.closeQuietly o h s) := by
  unfold Transport.closeQuietly
  rw [ht.close]
  rcases t'.close h s with ⟨e | u, s'⟩
  · exact ht.note _ _
  · rfl

theorem read_eq {want : Nat} {h h' : K} {s s' : τ} {reply : Reply} (heq : t'.read want h s = (reply, h', s')) :
    t.read want (handle h) (state s) = (reply, handle h', state s') := by
  rw [ht.read, heq]

theorem openPinned (o : ObjectHandle) (start stop : Int) (s : τ) :
    t.openPinned o start stop (state s) =
      ((t'.openPinned o start stop s).1.map handle, state (t'.openPinned o start stop s).2) := by
  unfold Transport.openPinned pinBoth
  rw [ht.openRange]
  rcases t'.openRange o start stop s with ⟨e | h, s₁⟩
  · rfl
  · dsimp only [Except.map]
    rw [ht.pin]
    rcases t'.pin .seek start h s₁ with ⟨e | u, h₂, s₂⟩
    · dsimp only
      rw [ht.closeQuietly]
    · dsimp only
      rw [ht.pin]
      rcases t'.pin .limit stop h₂ s₂ with ⟨e | u, h₃, s₃⟩
      · dsimp only
        rw [ht.closeQuietly]
      · dsimp only
        rw [ht.note]

end Transport.Covers

/-! ## What is asked of a transport -/

/-- What is known of a transport, seen from one that covers it. -/
def View.through (v : View σ H) (handle : K → H) (state : τ → σ) : View τ K where
  idle s := v.idle (state s)
  stands h cursor stop s := v.stands (handle h) cursor stop (state s)

namespace Transport.Covers

variable {t' : Transport τ K} {t : Transport σ H} {handle : K → H} {state : τ → σ} {o : ObjectHandle}
  {data : ByteArray} {v : View σ H} (h : t'.Covers t handle state)
include h

theorem openRange_eq {start stop : Int} {s s' : τ} {a : Except ReadError K}
    (heq : t'.openRange o start stop s = (a, s')) : t.openRange o start stop (state s) = (a.map handle, state s') := by
  rw [h.openRange, heq]

theorem pin_eq {pin : Pin} {offset : Int} {r r' : K} {s s' : τ} {a : Except ReadError Unit}
    (heq : t'.pin pin offset r s = (a, r', s')) : t.pin pin offset (handle r) (state s) = (a, handle r', state s') := by
  rw [h.pin, heq]

/-- What the transport behind replies, the one in front does. -/
theorem exists_read {want : Nat} {r : K} {s : τ} {reply : Reply} {r₁ : H} {s₁ : σ}
    (heq : t.read want (handle r) (state s) = (reply, r₁, s₁)) : ∃ r' s', t'.read want r s = (reply, r', s') := by
  rw [h.read] at heq
  exact ⟨_, _, Prod.ext (Prod.mk.inj heq).1 rfl⟩

/-- So does one in front open and pin the ranges that the one behind does. -/
theorem exists_openPinned {start stop : Int} {s : τ} {r : H} {s₁ : σ}
    (heq : t.openPinned o start stop (state s) = (.ok r, s₁)) : ∃ r' s', t'.openPinned o start stop s = (.ok r', s') := by
  rw [h.openPinned] at heq
  rcases hopened : t'.openPinned o start stop s with ⟨e | r', s'⟩
  · rw [hopened] at heq
    cases heq
  · exact ⟨r', s', rfl⟩

theorem honest (ht : t.Honest o v) : t'.Honest o (v.through handle state) where
  note_idle {s} notice hs := by
    show v.idle (state _)
    rw [← h.note]
    exact ht.note_idle notice hs
  note_stands notice hs := by
    show v.stands _ _ _ (state _)
    rw [← h.note]
    exact ht.note_stands notice hs
  opened hs hw heq := ht.opened hs hw (h.openRange_eq heq)
  refused hs hw heq := ht.refused hs hw (h.openRange_eq heq)
  sought hs heq := ht.sought hs (h.pin_eq heq)
  limited hs heq := ht.limited hs (h.pin_eq heq)
  notPinned hs heq := ht.notPinned hs (h.pin_eq heq)
  failed hs hw heq := ht.failed hs hw (h.read_eq heq)
  ended hs hw heq := ht.ended hs hw (h.read_eq heq)
  reports hs hw heq := ht.reports hs hw (h.read_eq heq)
  delivered hs hw heq := ht.delivered hs hw (h.read_eq heq)
  close {r cursor stop s} hs := by
    have hclosed := ht.close hs
    rw [h.close] at hclosed
    exact hclosed

theorem truthful (ht : t.Truthful o data v) : t'.Truthful o data (v.through handle state) where
  toHonest := h.honest ht.toHonest
  writes hs hw heq := ht.writes hs hw (h.read_eq heq)
  writes_nothing hs hw heq := ht.writes_nothing hs hw (h.read_eq heq)

theorem reliable (ht : t.Reliable o data v) : t'.Reliable o data (v.through handle state) where
  toTruthful := h.truthful ht.toTruthful
  opens hs hw := by
    obtain ⟨r, s₁, hopen⟩ := ht.opens hs hw
    exact h.exists_openPinned hopen
  reads hs hw hlt hwant := by
    obtain ⟨bytes, r, s₁, hread, hsome⟩ := ht.reads hs hw hlt hwant
    obtain ⟨r', s', hread'⟩ := h.exists_read hread
    exact ⟨bytes, r', s', hread', hsome⟩
  ends hs hw hwant := by
    obtain ⟨r, s₁, hread⟩ := ht.ends hs hw hwant
    exact h.exists_read hread

end Transport.Covers

/-! ## Channels -/

namespace Channel

/-- A range that is open has one behind it. -/
theorem behind_of_range {handle : K → H} {c : Channel K} {r : OpenRange K} (hr : c.range = some r) :
    (c.behind handle).range = some (r.behind handle) := by
  rw [behind_range, hr]
  rfl

theorem behind_of_none {handle : K → H} {c : Channel K} (hr : c.range = none) : (c.behind handle).range = none := by
  rw [behind_range, hr]
  rfl

theorem IsNew.behind {handle : K → H} {c : Channel K} (h : IsNew c) : IsNew (c.behind handle) := by
  cases h with
  | adaptive object options => exact .adaptive object options
  | simple object options => exact .simple object options

/-- A new channel is behind one with any other kind of ranges. -/
theorem IsNew.exists_behind {c : Channel H} (h : IsNew c) (handle : K → H) :
    ∃ c' : Channel K, IsNew c' ∧ c'.behind handle = c := by
  cases h with
  | adaptive object options => exact ⟨.adaptive object options, .adaptive _ _, rfl⟩
  | simple object options => exact ⟨.simple object options, .simple _ _, rfl⟩

variable {t' : Transport τ K} {t : Transport σ H} {handle : K → H} {state : τ → σ} (ht : t'.Covers t handle state)
include ht

/-! ## Bringing the range to the position -/

theorem dropRange_behind (c : Channel K) (s : τ) :
    (c.behind handle).dropRange t (state s) = ((c.dropRange t' s).1.behind handle, state (c.dropRange t' s).2) := by
  cases hr : c.range with
  | none =>
    rw [dropRange_of_none hr, dropRange_of_none (by simp [hr])]
  | some r =>
    have hbehind : (c.behind handle).range = some (r.behind handle) := by simp [hr]
    rw [dropRange_of_range hr, dropRange_of_range hbehind]
    exact Prod.ext rfl (ht.closeQuietly c.object r.handle s)

theorem noteChange_behind (o : ObjectHandle) (change : Option PatternChange) (s : τ) :
    noteChange t o change (state s) = state (noteChange t' o change s) := by
  cases change with
  | none => rfl
  | some change => exact ht.note _ _

theorem Skips.behind {n : Nat} {c c' : Channel K} {s s' : τ} {a : Outcome ReadError Unit}
    (h : Skips t' n c s a c' s') : Skips t n (c.behind handle) (state s) a (c'.behind handle) (state s') := by
  induction h with
  | stalled => exact .stalled
  | noRange hr => exact .noRange (behind_of_none hr)
  | @failed n c s r e h s' hr hread =>
    rw [← ht.closeQuietly]
    exact .failed (behind_of_range hr) (ht.read_eq hread)
  | @ended n c s r bytes h s' hr hread =>
    rw [← ht.closeQuietly, ← ht.note]
    exact .ended (behind_of_range hr) (ht.read_eq hread)
  | arrived hr hread hle => exact .arrived (behind_of_range hr) (ht.read_eq hread) hle
  | onward hr hread hlt _ ih => exact .onward (behind_of_range hr) (ht.read_eq hread) hlt ih

theorem skip_behind (n : Nat) (c : Channel K) (s : τ) :
    skip t n (c.behind handle) (state s) = seen handle state (skip t' n c s) :=
  ((skips_skip n c s).behind ht).eq

theorem reposition_behind (n : Nat) (c : Channel K) (s : τ) :
    reposition t n (c.behind handle) (state s) = seen handle state (reposition t' n c s) := by
  cases hr : c.range with
  | none =>
    rw [reposition_of_none n hr, reposition_of_none n (behind_of_none hr)]
    rfl
  | some r =>
    rw [reposition_of_range n hr, reposition_of_range n (behind_of_range hr), skip_behind ht]
    by_cases hat : c.position = r.cursor
    · rw [if_pos hat]
      exact if_pos hat
    · rw [if_neg hat]
      refine (if_neg hat).trans ?_
      by_cases hskip : c.sizing.canSkip c.position r.cursor r.stop = true
      · rw [if_pos hskip]
        exact if_pos hskip
      · rw [if_neg hskip]
        refine (if_neg hskip).trans ?_
        have hdropped := ht.closeQuietly c.object r.handle
          (noteChange t' c.object (c.sizing.observeSeek c.position r.cursor).1 s)
        rw [← noteChange_behind ht] at hdropped
        exact Prod.ext rfl (Prod.ext rfl hdropped)

/-! ## Filling -/

theorem ensureRange_behind {need : Int} {c c₁ : Channel K} {s s₁ : τ} {a : Except ReadError (OpenRange K)}
    (h : c.ensureRange t' need s = (a, c₁, s₁)) :
    (c.behind handle).ensureRange t need (state s) = (a.map (·.behind handle), c₁.behind handle, state s₁) := by
  cases hr : c.range with
  | none =>
    have hnoted : (c.behind handle).noted t need (state s) = state (c.noted t' need s) := noteChange_behind ht _ _ _
    have hbehind : t.openPinned (c.behind handle).object (c.behind handle).position ((c.behind handle).nextStop need)
        (state (c.noted t' need s)) = _ := ht.openPinned c.object c.position (c.nextStop need) (c.noted t' need s)
    rw [ensureRange_of_none hr] at h
    rw [ensureRange_of_none (behind_of_none hr), hnoted, hbehind]
    rcases hopen : t'.openPinned c.object c.position (c.nextStop need) (c.noted t' need s) with ⟨e | r, s'⟩
    · rw [hopen] at h
      cases h
      rfl
    · rw [hopen] at h
      cases h
      rfl
  | some r =>
    rw [ensureRange_of_range need hr] at h
    cases h
    exact ensureRange_of_range need (behind_of_range hr)

theorem afterRead_behind (c : Channel K) (stop n : Int) (s : τ) :
    (c.behind handle).afterRead t stop n (state s) = state (c.afterRead t' stop n s) := by
  unfold afterRead noteEmptyRead
  rw [behind_sizing]
  split
  · split
    · rfl
    · exact ht.note _ _
  · rfl

theorem Fills.behind {want n : Nat} {gap : Nat → Nat → ByteArray} {got : Filling} {c c' : Channel K} {s s' : τ}
    {a : Outcome ReadError Filling} (h : Fills t' want gap n got c s a c' s') :
    Fills t want gap n got (c.behind handle) (state s) a (c'.behind handle) (state s') := by
  induction h with
  | stalled => exact .stalled
  | notOpened hensure => exact .notOpened (ensureRange_behind ht hensure)
  | failed hensure hread =>
    rw [← ht.closeQuietly]
    exact .failed (ensureRange_behind ht hensure) (ht.read_eq hread)
  | cutShort hensure hread hstop hsize =>
    rw [← ht.closeQuietly]
    exact .cutShort (ensureRange_behind ht hensure) (ht.read_eq hread) hstop hsize
  | continued hensure hread hstop hsize _ ih =>
    rw [← ht.closeQuietly] at ih
    exact .continued (ensureRange_behind ht hensure) (ht.read_eq hread) hstop hsize ih
  | ended hensure hread hsize hstop =>
    exact .ended (ensureRange_behind ht hensure) (ht.read_eq hread) hsize hstop
  | full hensure hread hle =>
    rw [← afterRead_behind ht]
    exact .full (ensureRange_behind ht hensure) (ht.read_eq hread) hle
  | more hensure hread hlt _ ih =>
    rw [← afterRead_behind ht] at ih
    exact .more (ensureRange_behind ht hensure) (ht.read_eq hread) hlt ih

theorem fill_behind (want : Nat) (gap : Nat → Nat → ByteArray) (n : Nat) (got : Filling) (c : Channel K) (s : τ) :
    fill t want gap n got (c.behind handle) (state s) = seen handle state (fill t' want gap n got c s) :=
  ((fills_fill _ _ n got c s).behind ht).eq

/-! ## Operations -/

theorem deliver_behind (n want : Nat) (gap : Nat → Nat → ByteArray) (c : Channel K) (s : τ) :
    deliver t n want gap (c.behind handle) (state s) = seen handle state (deliver t' n want gap c s) := by
  unfold deliver
  rw [reposition_behind ht]
  rcases reposition t' n c s with ⟨a, c₁, s₁⟩
  cases a with
  | failed e => rfl
  | stalled => rfl
  | done u =>
    dsimp only [seen]
    rw [fill_behind ht]
    rcases fill t' want gap n {} c₁ s₁ with ⟨a, c₂, s₂⟩
    cases a with
    | failed e => rfl
    | stalled => rfl
    | done got => rfl

variable {recorder : Option (Recorder ρ)} {memory : Nat}

theorem deliverAndReport_behind (n want : Nat) (gap : Nat → Nat → ByteArray) (c : Channel K) (w : World τ ρ) :
    deliverAndReport ⟨t, recorder, memory⟩ n want gap (c.behind handle) (w.behind state) =
      seen handle (World.behind state) (deliverAndReport ⟨t', recorder, memory⟩ n want gap c w) := by
  have hdeliver := deliver_behind ht n want gap c w.transport
  unfold deliverAndReport
  dsimp only [World.behind]
  rw [hdeliver]
  rcases deliver t' n want gap c w.transport with ⟨a, c₁, s₁⟩
  cases a with
  | failed e => rfl
  | stalled => rfl
  | done got => rfl

theorem readInto_behind (n : Nat) (buffer : ByteArray) (c : Channel K) (w : World τ ρ) :
    readInto ⟨t, recorder, memory⟩ n buffer (c.behind handle) (w.behind state) =
      seen handle (World.behind state) (readInto ⟨t', recorder, memory⟩ n buffer c w) := by
  unfold readInto
  rw [behind_closed, deliverAndReport_behind ht]
  split
  · rfl
  · split
    · rfl
    · rfl

theorem read_behind (n : Nat) (k : Option Int) (c : Channel K) (w : World τ ρ) :
    read ⟨t, recorder, memory⟩ n k (c.behind handle) (w.behind state) =
      seen handle (World.behind state) (read ⟨t', recorder, memory⟩ n k c w) := by
  have hasked : (c.behind handle).asked k = c.asked k := rfl
  unfold read
  rw [behind_closed, hasked]
  dsimp only
  rw [deliverAndReport_behind ht]
  split
  · rfl
  · split
    · rfl
    · split
      · rfl
      · rfl

theorem moveTo_behind (target : Int) (c : Channel K) (s : τ) :
    (c.behind handle).moveTo t target (state s) =
      ((c.moveTo t' target s).1.behind handle, state (c.moveTo t' target s).2) := by
  have hdrop := dropRange_behind ht c s
  unfold moveTo
  rw [behind_sizing, behind_position, hdrop]
  split
  · rfl
  · split
    · rfl
    · rfl

theorem seek_behind (offset whence : Int) (c : Channel K) (s : τ) :
    (c.behind handle).seek t offset whence (state s) = seen handle state (c.seek t' offset whence s) := by
  unfold seek
  rw [behind_closed, behind_position, behind_object]
  split
  · rfl
  · split
    · rfl
    · dsimp only
      rw [moveTo_behind ht]
      rfl

theorem close_behind (c : Channel K) (s : τ) :
    (c.behind handle).close t (state s) = ((c.close t' s).1.behind handle, state (c.close t' s).2) := by
  have hdrop := dropRange_behind ht c s
  unfold close
  rw [behind_closed, hdrop]
  split
  · rfl
  · rfl

/-- Every operation comes out as over the transport behind. -/
theorem perform_behind (n : Nat) (operation : Operation) (c : Channel K) (w : World τ ρ) :
    perform ⟨t, recorder, memory⟩ n operation (c.behind handle) (w.behind state) =
      seen handle (World.behind state) (perform ⟨t', recorder, memory⟩ n operation c w) := by
  cases operation with
  | read k =>
    unfold perform
    dsimp only
    rw [read_behind ht]
    rfl
  | readAll =>
    unfold perform
    dsimp only
    rw [read_behind ht]
    rfl
  | readInto buffer =>
    unfold perform
    dsimp only
    rw [readInto_behind ht]
    rfl
  | seek offset whence =>
    have hseek := seek_behind ht offset whence c w.transport
    unfold perform
    dsimp only [World.behind]
    rw [hseek]
    rfl
  | tell => rfl
  | close =>
    have hclose := close_behind ht c w.transport
    unfold perform
    dsimp only [World.behind]
    rw [hclose]
    rfl

/-- So does every run. -/
theorem run_behind (n : Nat) (operations : List Operation) (c : Channel K) (w : World τ ρ) :
    run ⟨t, recorder, memory⟩ n operations (c.behind handle) (w.behind state) =
      seen handle (World.behind state) (run ⟨t', recorder, memory⟩ n operations c w) := by
  induction operations generalizing c w with
  | nil => rfl
  | cons operation operations ih =>
    rw [run_cons, run_cons, perform_behind ht]
    dsimp only [seen]
    rw [ih]
    rfl

end Channel

end RangeRead
