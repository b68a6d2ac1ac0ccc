import RangeRead.Proofs.Transport.Windows

/-!
# Lists of the ranges that were opened

`Transport.listing` passes every call on to another transport and lists the windows of the ranges that it opened. It is
as honest (`Honest.listing`), and lists windows of the object only (`listing_keepsWithin`).
-/

namespace RangeRead

/-- The state of a transport and the windows of the ranges that it opened. -/
structure Listed (σ : Type) where
  behind : σ
  windows : List (Int × Int) := []

namespace Listed

variable {σ : Type}

/-- The state of a transport that has not opened any range yet. -/
def start (s : σ) : Listed σ := { behind := s }

/-- All ranges that were opened are ranges of the object. -/
def KeepsWithin (o : ObjectHandle) (s : Listed σ) : Prop := ∀ window ∈ s.windows, o.Window window.1 window.2

end Listed

variable {σ H : Type} {t : Transport σ H} {o : ObjectHandle} {v : View σ H}

/-- The transport that passes every call on to another one and lists the ranges that it opens. -/
def Transport.listing (t : Transport σ H) : Transport (Listed σ) H :=
  { t.within Listed.behind fun state s => { s with behind := state } with
    openRange := fun object start stop s =>
      match t.openRange object start stop s.behind with
      | (.error e, state) => (.error e, { s with behind := state })
      | (.ok h, state) => (.ok h, ⟨state, s.windows ++ [(start, stop)]⟩) }

/-- What is known of a listing transport is what is known of the one behind it. -/
def View.listing (v : View σ H) : View (Listed σ) H where
  idle s := v.idle s.behind
  stands h cursor stop s := v.stands h cursor stop s.behind

namespace Transport

theorem listing_openRange_error {start stop : Int} {s s' : Listed σ} {e : ReadError}
    (h : t.listing.openRange o start stop s = (.error e, s')) :
    t.openRange o start stop s.behind = (.error e, s'.behind) ∧ s'.windows = s.windows := by
  simp only [listing] at h
  split at h
  · rename_i heq
    cases h
    exact ⟨heq, rfl⟩
  · cases h

theorem listing_openRange_ok {start stop : Int} {s s' : Listed σ} {r : H}
    (h : t.listing.openRange o start stop s = (.ok r, s')) :
    t.openRange o start stop s.behind = (.ok r, s'.behind) ∧ s'.windows = s.windows ++ [(start, stop)] := by
  simp only [listing] at h
  split at h
  · cases h
  · rename_i heq
    cases h
    exact ⟨heq, rfl⟩

theorem listing_pin {pin : Pin} {offset : Int} {r r' : H} {s s' : Listed σ} {a : Except ReadError Unit}
    (h : t.listing.pin pin offset r s = (a, r', s')) :
    t.pin pin offset r s.behind = (a, r', s'.behind) ∧ s'.windows = s.windows := by
  cases h
  exact ⟨rfl, rfl⟩

theorem listing_read {want : Nat} {r r' : H} {s s' : Listed σ} {reply : Reply}
    (h : t.listing.read want r s = (reply, r', s')) :
    t.read want r s.behind = (reply, r', s'.behind) ∧ s'.windows = s.windows := by
  cases h
  exact ⟨rfl, rfl⟩

/-- With a list a transport does what it does without one. -/
theorem listing_covers (t : Transport σ H) : t.listing.Covers t id Listed.behind where
  openRange o start stop s := by
    simp only [listing]
    rcases t.openRange o start stop s.behind with ⟨e | r, s'⟩ <;> rfl
  pin _ _ _ _ := rfl
  read _ _ _ := rfl
  close _ _ := rfl
  note _ _ := rfl

/-- A listing transport is as honest as the one behind it. -/
theorem Honest.listing (ht : t.Honest o v) : t.listing.Honest o v.listing := (listing_covers t).honest ht

/-- A listing transport keeps to the windows of the object that it is used for. -/
theorem listing_keepsWithin (t : Transport σ H) (o : ObjectHandle) : t.listing.Preserves o (Listed.KeepsWithin o) where
  openRange {start stop s a s'} hw hs hopen := by
    cases a with
    | error e =>
      unfold Listed.KeepsWithin
      rw [(listing_openRange_error hopen).2]
      exact hs
    | ok h =>
      unfold Listed.KeepsWithin
      rw [(listing_openRange_ok hopen).2, List.forall_mem_append]
      exact ⟨hs, fun window hmem => by rw [List.mem_singleton.mp hmem]; exact hw⟩
  pin hs hpin := by
    unfold Listed.KeepsWithin
    rw [(listing_pin hpin).2]
    exact hs
  read hs hread := by
    unfold Listed.KeepsWithin
    rw [(listing_read hread).2]
    exact hs
  close hs := hs
  note hs := hs

end Transport

end RangeRead
