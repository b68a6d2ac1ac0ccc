import RangeRead.Proofs.Channel.Loop

/-!
# What a delivery leaves alone

- A delivery changes neither the object nor the options of a channel, and does not close it (`Delivers.sameAs`).
  Before the buffer is filled the position stays as well (`reposition_sameAs`).
- A delivery that fails leaves no range open and the position where it was (`Delivers.of_failed`).
-/

namespace RangeRead.Channel

variable {σ H ρ : Type} {t : Transport σ H}

/-! ## The fixed part of a channel -/

/-- `c'` is a later state of the channel `c`, which has not been closed or opened in between. -/
structure SameAs (c' c : Channel H) : Prop where
  object : c'.object = c.object
  options : c'.options = c.options
  closed : c'.closed = c.closed

theorem SameAs.refl (c : Channel H) : SameAs c c := ⟨rfl, rfl, rfl⟩

theorem SameAs.trans {c₁ c₂ c₃ : Channel H} (h₁ : SameAs c₂ c₁) (h₂ : SameAs c₃ c₂) : SameAs c₃ c₁ :=
  ⟨h₂.object.trans h₁.object, h₂.options.trans h₁.options, h₂.closed.trans h₁.closed⟩

/-! ## Bringing the range to the position -/

/-- Skipping changes nothing but the range. -/
theorem Skips.eq_range {n : Nat} {c c' : Channel H} {s s' : σ} {a : Outcome ReadError Unit}
    (h : Skips t n c s a c' s') : c' = { c with range := c'.range } := by
  induction h with
  | stalled => rfl
  | noRange _ => rfl
  | failed _ _ => rfl
  | ended _ _ => rfl
  | arrived _ _ _ => rfl
  | onward _ _ _ _ ih => exact ih

/-- A skip that fails leaves no range open. -/
theorem Skips.range_of_failed {n : Nat} {c c' : Channel H} {s s' : σ} {a : Outcome ReadError Unit} {e : ReadError}
    (h : Skips t n c s a c' s') (ha : a = .failed e) : c'.range = none := by
  induction h with
  | stalled => cases ha
  | noRange _ => cases ha
  | failed _ _ => rfl
  | ended _ _ => cases ha
  | arrived _ _ _ => cases ha
  | onward _ _ _ _ ih => exact ih ha

/-- Bytes are skipped only by an adaptive channel, towards a position ahead of the cursor and inside the range. -/
theorem canSkip_ahead {z : Sizing} {target cursor stop : Int} (h : z.canSkip target cursor stop = true) :
    z ≠ .wholeObject ∧ cursor < target ∧ target < stop := by
  cases z with
  | wholeObject => cases h
  | adaptive strategy =>
    simp only [Sizing.canSkip, Strategy.canSkip, Bool.and_eq_true, decide_eq_true_eq] at h
    exact ⟨nofun, by omega, by omega⟩

/-- Without a range there is nothing to bring to the position. -/
theorem reposition_of_none {c : Channel H} {s : σ} (n : Nat) (h : c.range = none) :
    reposition t n c s = (.done (), c, s) := by
  unfold reposition
  rw [h]

/-- An open range stays where it is, is read on up to the position, or is dropped. -/
theorem reposition_of_range {c : Channel H} {s : σ} {r : OpenRange H} (n : Nat) (h : c.range = some r) :
    reposition t n c s =
      if c.position = r.cursor then (.done (), c, s)
      else if c.sizing.canSkip c.position r.cursor r.stop then skip t n c s
      else
        (.done (), { c with sizing := (c.sizing.observeSeek c.position r.cursor).2, range := none },
          t.closeQuietly c.object r.handle (noteChange t c.object (c.sizing.observeSeek c.position r.cursor).1 s)) := by
  unfold reposition dropRange
  simp only [h]

/-- Bringing the range to the position keeps the position. -/
theorem reposition_sameAs (n : Nat) (c : Channel H) (s : σ) :
    SameAs (reposition t n c s).2.1 c ∧ (reposition t n c s).2.1.position = c.position := by
  cases hr : c.range with
  | none =>
    rw [reposition_of_none n hr]
    exact ⟨.refl c, rfl⟩
  | some r =>
    rw [reposition_of_range n hr]
    split
    · exact ⟨.refl c, rfl⟩
    · split
      · rw [(skips_skip n c s).eq_range]
        exact ⟨⟨rfl, rfl, rfl⟩, rfl⟩
      · exact ⟨⟨rfl, rfl, rfl⟩, rfl⟩

theorem reposition_failed {n : Nat} {c c' : Channel H} {s s' : σ} {e : ReadError}
    (h : reposition t n c s = (.failed e, c', s')) : c'.range = none := by
  cases hr : c.range with
  | none =>
    rw [reposition_of_none n hr] at h
    cases h
  | some r =>
    rw [reposition_of_range n hr] at h
    split at h
    · cases h
    · split at h
      · have hs := skips_skip (t := t) n c s
        rw [h] at hs
        exact hs.range_of_failed rfl
      · cases h

/-! ## Filling -/

/-- Having a range for the position changes only the range and how ranges are sized. -/
theorem ensureRange_eq (need : Int) (c : Channel H) (s : σ) :
    (c.ensureRange t need s).2.1 =
      { c with sizing := (c.ensureRange t need s).2.1.sizing, range := (c.ensureRange t need s).2.1.range } := by
  cases hr : c.range with
  | none =>
    rw [ensureRange_of_none hr]
    split <;> rfl
  | some r =>
    rw [ensureRange_of_range need hr]

theorem ensureRange_sameAs {need : Int} {c c₁ : Channel H} {s s₁ : σ} {a : Except ReadError (OpenRange H)}
    (h : c.ensureRange t need s = (a, c₁, s₁)) : SameAs c₁ c ∧ c₁.position = c.position := by
  have he := ensureRange_eq (t := t) need c s
  rw [h] at he
  dsimp only at he
  rw [he]
  exact ⟨⟨rfl, rfl, rfl⟩, rfl⟩

/-- The range that is had is the channel's. -/
theorem ensureRange_ok {need : Int} {c c₁ : Channel H} {s s₁ : σ} {r : OpenRange H}
    (h : c.ensureRange t need s = (.ok r, c₁, s₁)) : c₁.range = some r := by
  cases hr : c.range with
  | none =>
    rw [ensureRange_of_none hr] at h
    split at h
    · cases h
    · cases h
      rfl
  | some r' =>
    rw [ensureRange_of_range need hr] at h
    cases h
    exact hr

/-- No range is open after one could not be opened. -/
theorem ensureRange_error {need : Int} {c c₁ : Channel H} {s s₁ : σ} {e : ReadError}
    (h : c.ensureRange t need s = (.error e, c₁, s₁)) : c₁.range = none := by
  cases hr : c.range with
  | none =>
    rw [ensureRange_of_none hr] at h
    split at h
    · cases h; exact hr
    · cases h
  | some r =>
    rw [ensureRange_of_range need hr] at h
    cases h

variable {want : Nat} {gap : Nat → Nat → ByteArray}

theorem Fills.sameAs {n : Nat} {got : Filling} {c c' : Channel H} {s s' : σ} {a : Outcome ReadError Filling}
    (h : Fills t want gap n got c s a c' s') : SameAs c' c := by
  induction h with
  | stalled => exact .refl _
  | notOpened hensure => exact (ensureRange_sameAs hensure).1
  | failed hensure _ => exact (ensureRange_sameAs hensure).1.trans ⟨rfl, rfl, rfl⟩
  | cutShort hensure _ _ _ => exact (ensureRange_sameAs hensure).1.trans ⟨rfl, rfl, rfl⟩
  | continued hensure _ _ _ _ ih => exact (ensureRange_sameAs hensure).1.trans ⟨ih.object, ih.options, ih.closed⟩
  | ended hensure _ _ _ => exact (ensureRange_sameAs hensure).1.trans ⟨rfl, rfl, rfl⟩
  | full hensure _ _ => exact (ensureRange_sameAs hensure).1.trans ⟨rfl, rfl, rfl⟩
  | more hensure _ _ _ ih => exact (ensureRange_sameAs hensure).1.trans ⟨ih.object, ih.options, ih.closed⟩

/-- A filling that fails leaves no range open. -/
theorem Fills.range_of_failed {n : Nat} {got : Filling} {c c' : Channel H} {s s' : σ} {a : Outcome ReadError Filling}
    {e : ReadError} (h : Fills t want gap n got c s a c' s') (ha : a = .failed e) : c'.range = none := by
  induction h with
  | stalled => cases ha
  | notOpened hensure => exact ensureRange_error hensure
  | failed _ _ => rfl
  | cutShort _ _ _ _ => rfl
  | continued _ _ _ _ _ ih => exact ih ha
  | ended _ _ _ _ => cases ha
  | full _ _ _ => cases ha
  | more _ _ _ _ ih => exact ih ha

/-! ## Deliveries -/

theorem Delivers.sameAs {n : Nat} {c c' : Channel H} {s s' : σ} {a : Outcome ReadError Filling}
    (h : Delivers t n want gap c s a c' s') : SameAs c' c := by
  have hs := (reposition_sameAs (t := t) n c s).1
  cases h with
  | notSkipped hreposition =>
    rw [hreposition] at hs
    exact hs.trans ⟨rfl, rfl, rfl⟩
  | stalled hreposition =>
    rw [hreposition] at hs
    exact hs
  | failed hreposition hfills =>
    rw [hreposition] at hs
    exact hs.trans (hfills.sameAs.trans ⟨rfl, rfl, rfl⟩)
  | filled hreposition hfills _ =>
    rw [hreposition] at hs
    exact hs.trans hfills.sameAs

/-- A delivery that fails leaves no range open and the position where it was. -/
theorem Delivers.of_failed {n : Nat} {c c' : Channel H} {s s' : σ} {e : ReadError}
    (h : Delivers t n want gap c s (.failed e) c' s') : c'.range = none ∧ c'.position = c.position := by
  cases h with
  | notSkipped hreposition =>
    have hrange := reposition_failed hreposition
    exact ⟨hrange, rfl⟩
  | failed _ hfills =>
    have hrange := hfills.range_of_failed rfl
    exact ⟨hrange, rfl⟩
  | filled _ _ hreturns => exact absurd rfl (hreturns e)

end RangeRead.Channel
