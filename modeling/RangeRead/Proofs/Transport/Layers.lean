import RangeRead.Proofs.Tracing
import RangeRead.Proofs.Transport.Listing

/-!
# Transports in layers

Covering goes through layers: what covers a transport that covers another one covers that one too (`Covers.trans`), and
if a transport covers another one it still does so with pauses (`Covers.paused`) and with a trace (`Covers.traced`) on
both. Where the serial numbers of a trace begin makes no difference (`traced_renumber`).
-/

namespace RangeRead

variable {υ σ τ L H K κ : Type} {t'' : Transport υ L} {t' : Transport τ K} {t : Transport σ H} {handle' : L → K}
  {state' : υ → τ} {handle : K → H} {state : τ → σ} {o : ObjectHandle} {data : ByteArray} {v : View σ H}

namespace Transport.Covers

/-! ## Chains -/

theorem refl (t : Transport σ H) : t.Covers t id id where
  openRange o start stop s := by
    show t.openRange o start stop s = ((t.openRange o start stop s).1.map id, (t.openRange o start stop s).2)
    rcases t.openRange o start stop s with ⟨e | r, s'⟩ <;> rfl
  pin _ _ _ _ := rfl
  read _ _ _ := rfl
  close _ _ := rfl
  note _ _ := rfl

theorem trans (h' : t''.Covers t' handle' state') (h : t'.Covers t handle state) :
    t''.Covers t (handle ∘ handle') (state ∘ state') where
  openRange o start stop s := by
    refine (h.openRange o start stop (state' s)).trans ?_
    rw [h'.openRange]
    cases (t''.openRange o start stop s).1 <;> rfl
  pin pin offset r s := by
    refine (h.pin pin offset (handle' r) (state' s)).trans ?_
    rw [h'.pin]
    rfl
  read want r s := by
    refine (h.read want (handle' r) (state' s)).trans ?_
    rw [h'.read]
    rfl
  close r s := by
    refine (h.close (handle' r) (state' s)).trans ?_
    rw [h'.close]
    rfl
  note notice s := (h.note notice (state' s)).trans (congrArg state (h'.note notice s))

end Transport.Covers

/-! ## Layers -/

/-- The state with another one behind it. -/
def Paused.map (f : τ → σ) (s : Paused τ) : Paused σ := ⟨f s.behind, s.pauses⟩

def Traced.map (f : τ → σ) (s : Traced τ κ) : Traced σ κ := ⟨f s.behind, s.trace, s.observer, s.readings⟩

/-- The range with another one behind it. -/
def TracedRange.map (f : K → H) (r : TracedRange K) : TracedRange H := ⟨f r.behind, r.serial⟩

/-- The trace as if `n` more records had been cleared away. -/
def Traced.renumber (n : Nat) (s : Traced σ κ) : Traced σ κ :=
  { s with trace := { s.trace with cleared := s.trace.cleared + n } }

def TracedRange.renumber (n : Nat) (r : TracedRange H) : TracedRange H := { r with serial := r.serial + n }

namespace Transport

/-- A transport whose pauses are not refused does what it does without them. -/
theorem paused_covers (t : Transport σ H) : (t.paused none).Covers t id Paused.behind where
  openRange o start stop s := by
    show t.openRange o start stop s.behind =
      ((t.openRange o start stop s.behind).1.map id, (t.openRange o start stop s.behind).2)
    rcases t.openRange o start stop s.behind with ⟨e | r, s'⟩ <;> rfl
  pin _ _ _ _ := rfl
  read _ _ _ := rfl
  close _ _ := rfl
  note _ _ := rfl

theorem Covers.paused (h : t'.Covers t handle state) (refusal : Option Fault) :
    (t'.paused refusal).Covers (t.paused refusal) handle (Paused.map state) where
  openRange o start stop s := by
    cases refusal with
    | some fault => rfl
    | none => simp only [Transport.paused, Paused.map, h.openRange]
  pin pin offset r s := by simp only [Transport.paused, within, Paused.map, h.pin]
  read want r s := by simp only [Transport.paused, within, Paused.map, h.read]
  close r s := by simp only [Transport.paused, within, Paused.map, h.close]
  note notice s := by simp only [Transport.paused, within, Paused.map, h.note]

theorem Covers.traced (h : t'.Covers t handle state) (clock : Nat → Float) (observer : Option (Observer κ)) :
    (t'.traced clock observer).Covers (t.traced clock observer) (TracedRange.map handle) (Traced.map state) where
  openRange o start stop s := by
    show t.openTraced clock observer o start stop (s.map state) =
      ((t'.openTraced clock observer o start stop s).1.map (TracedRange.map handle),
        (t'.openTraced clock observer o start stop s).2.map state)
    have hbehind : t.openRange o start stop (s.map state).behind = _ := h.openRange o start stop s.behind
    unfold openTraced
    rw [hbehind]
    rcases t'.openRange o start stop s.behind with ⟨opened, s'⟩
    -- the record does not depend on what is behind
    dsimp only [Traced.map]
    generalize showRecord observer _ s.observer = shown
    obtain ⟨_ | u, k⟩ := shown <;> obtain _ | r := opened <;> rfl
  pin pin offset r s := by simp only [Transport.traced, Traced.map, TracedRange.map, h.pin]
  read want r s := by
    show t.readTraced want (r.map handle) (s.map state) = ((t'.readTraced want r s).1,
      (t'.readTraced want r s).2.1.map handle, (t'.readTraced want r s).2.2.map state)
    have hbehind : t.read want (r.map handle).behind (s.map state).behind = _ := h.read want r.behind s.behind
    unfold readTraced
    rw [hbehind]
    rcases t'.read want r.behind s.behind with ⟨reply, r', s'⟩
    cases reply <;> rfl
  close r s := by simp only [Transport.traced, Traced.map, TracedRange.map, h.close]
  note notice s := by simp only [Transport.traced, Traced.map, h.note]

end Transport

/-- A record has the same place if all serial numbers are higher. -/
theorem RequestTrace.updateBytesRead_renumber (trace : RequestTrace) (n serial : Nat) (f : Int → Int) :
    RequestTrace.updateBytesRead { trace with cleared := trace.cleared + n } (serial + n) f =
      { trace.updateBytesRead serial f with cleared := trace.cleared + n } := by
  unfold updateBytesRead
  dsimp only
  rw [Nat.add_sub_add_right]
  by_cases hcleared : serial < trace.cleared
  · rw [if_pos hcleared, if_pos (Nat.add_lt_add_right hcleared n)]
  · rw [if_neg hcleared, if_neg fun h => hcleared (Nat.lt_of_add_lt_add_right h)]

/-- A trace does the same with other serial numbers. -/
theorem Transport.traced_renumber (t : Transport σ H) (clock : Nat → Float) (observer : Option (Observer κ)) (n : Nat) :
    (t.traced clock observer).Covers (t.traced clock observer) (.renumber n) (.renumber n) where
  openRange o start stop s := by
    show t.openTraced clock observer o start stop (s.renumber n) =
      ((t.openTraced clock observer o start stop s).1.map (.renumber n),
        (t.openTraced clock observer o start stop s).2.renumber n)
    have hbehind : (s.renumber n).behind = s.behind := rfl
    unfold openTraced
    rw [hbehind]
    rcases t.openRange o start stop s.behind with ⟨opened, s'⟩
    dsimp only [Traced.renumber, RequestTrace.add]
    generalize showRecord observer _ s.observer = shown
    obtain ⟨_ | u, k⟩ := shown <;> obtain _ | r := opened
    · rfl
    · rfl
    · rfl
    · have hserial : s.trace.cleared + n + s.trace.requests.length = s.trace.cleared + s.trace.requests.length + n :=
        Nat.add_right_comm _ _ _
      simp only [Except.map, TracedRange.renumber, hserial]
  pin _ _ _ _ := rfl
  read want r s := by
    show t.readTraced want (r.renumber n) (s.renumber n) = ((t.readTraced want r s).1,
      (t.readTraced want r s).2.1.renumber n, (t.readTraced want r s).2.2.renumber n)
    have hbehind : t.read want (r.renumber n).behind (s.renumber n).behind = t.read want r.behind s.behind := rfl
    unfold readTraced
    rw [hbehind]
    rcases t.read want r.behind s.behind with ⟨reply, r', s'⟩
    cases reply with
    | failed e => rfl
    | endOfStream bytes => rfl
    | delivered bytes excess =>
      simp only [Traced.renumber, TracedRange.renumber, RequestTrace.updateBytesRead_renumber,
        RequestTrace.updateBytesRead_cleared]
  close _ _ := rfl
  note _ _ := rfl

end RangeRead
