import RangeRead.Proofs.Channel.Placed
import RangeRead.Proofs.Channel.Sized
import RangeRead.Proofs.Transport.Steady

/-!
# Laps over a steady transport

Over a steady transport that lists its ranges, a channel whose range stands at the position fills a buffer in laps
(`Lap`): it opens a range where none is open, reads on, or lets go of a range that has been read up to its end before
the object ends. A filling never fails then, and a filling that comes to its end leaves a range open (`Fills.laps`).
Bringing the range to the position opens none (`reposition_windows`).

What every lap keeps is kept by every filling. All laps keep the range at the position (`Lap.aligned`) and as far
as it should reach (`Lap.sized`).
-/

namespace RangeRead.Channel

variable {σ H : Type} {t : Transport σ H} {o : ObjectHandle} {v : View σ H}

/-! ## Lists of ranges -/

theorem noteChange_windows (o : ObjectHandle) (change : Option PatternChange) (s : Listed σ) :
    (noteChange t.listing o change s).windows = s.windows :=
  noteChange_keeps (P := fun s' : Listed σ => s'.windows = s.windows) (fun _ h => h) change rfl

theorem afterRead_windows (c : Channel H) (stop n : Int) (s : Listed σ) :
    (c.afterRead t.listing stop n s).windows = s.windows :=
  afterRead_keeps (P := fun s' : Listed σ => s'.windows = s.windows) (fun _ h => h) c stop n rfl

theorem dropRange_windows (c : Channel H) (s : Listed σ) : (c.dropRange t.listing s).2.windows = s.windows := by
  cases hr : c.range with
  | none => rw [dropRange_of_none hr]
  | some r =>
    rw [dropRange_of_range hr]
    exact Transport.listing_closeQuietly_windows _ _ _

theorem Skips.windows {n : Nat} {c c' : Channel H} {s s' : Listed σ} {a : Outcome ReadError Unit}
    (h : Skips t.listing n c s a c' s') : s'.windows = s.windows := by
  induction h with
  | stalled => rfl
  | noRange _ => rfl
  | failed _ hread => rw [Transport.listing_closeQuietly_windows, (Transport.listing_read hread).2]
  | @ended n c s r bytes h s' hr hread =>
    have hnoted : (t.listing.note (.endedInSkip c.position c.object) s').windows = s'.windows := rfl
    rw [Transport.listing_closeQuietly_windows, hnoted, (Transport.listing_read hread).2]
  | arrived _ hread _ => exact (Transport.listing_read hread).2
  | onward _ hread _ _ ih => rw [ih, (Transport.listing_read hread).2]

/-- Bringing the range to the position opens none. -/
theorem reposition_windows (n : Nat) (c : Channel H) (s : Listed σ) :
    (reposition t.listing n c s).2.2.windows = s.windows := by
  cases hr : c.range with
  | none => rw [reposition_of_none n hr]
  | some r =>
    rw [reposition_of_range n hr]
    split
    · rfl
    · split
      · exact (skips_skip n c s).windows
      · rw [Transport.listing_closeQuietly_windows, noteChange_windows]

theorem moveTo_windows (target : Int) (c : Channel H) (s : Listed σ) :
    (c.moveTo t.listing target s).2.windows = s.windows := by
  rcases moveTo_eq t.listing target c s with ⟨-, h⟩ | ⟨-, h⟩
  · rw [h]
  · rw [h]
    exact dropRange_windows c s

theorem seek_windows (offset whence : Int) (c : Channel H) (s : Listed σ) :
    (c.seek t.listing offset whence s).2.2.windows = s.windows := by
  unfold seek
  split
  · rfl
  · split
    · rfl
    · exact moveTo_windows _ c s

theorem close_windows (c : Channel H) (s : Listed σ) : (c.close t.listing s).2.windows = s.windows := by
  unfold close
  split
  · rfl
  · exact dropRange_windows c s

/-! ## Laps -/

/-- `Lap (c, windows) (c', windows')`: a lap of filling a buffer leads from `c` to `c'`, where the ranges opened so
far are `windows` and then `windows'`. -/
inductive Lap : Channel H × List (Int × Int) → Channel H × List (Int × Int) → Prop
  | opens {c windows} {need : Int} {h : H} (hr : c.range = none) :
    Lap (c, windows)
      ({ c with sizing := c.nextSizing need, range := some ⟨h, c.position, c.nextStop need⟩ },
        windows ++ [(c.position, c.nextStop need)])
  | reads {c windows r} {h : H} {n : Int} (hr : c.range = some r) :
    Lap (c, windows) ({ c with position := c.position + n, range := some (r.advance h n) }, windows)
  /-- The range has been read up to its end, and the object goes on. -/
  | continues {c windows r} (hr : c.range = some r) (hposition : c.position = r.stop)
      (hsize : r.stop ≠ c.object.size) :
    Lap (c, windows) ({ c with range := none }, windows)

/-- A sequence of laps. -/
abbrev Laps : Channel H × List (Int × Int) → Channel H × List (Int × Int) → Prop := Relation.ReflTransGen Lap

theorem Lap.aligned {c c' : Channel H} {windows windows' : List (Int × Int)} (h : Lap (c, windows) (c', windows'))
    (ha : Aligned c) : Aligned c' := by
  cases h with
  | opens _ => exact .of_range rfl rfl
  | @reads _ _ r h n hr =>
    have hcursor : r.cursor + n = c.position + n := congrArg (· + n) (ha r hr)
    exact .of_range rfl hcursor
  | continues _ _ _ => exact .of_none rfl

theorem Lap.sized {c c' : Channel H} {windows windows' : List (Int × Int)} (h : Lap (c, windows) (c', windows'))
    (hs : Sized c) : Sized c' := by
  obtain ⟨hfits, hadmits⟩ := hs
  cases h with
  | opens _ =>
    refine ⟨Sizing.rangeEnd_fits hfits _ _ _, fun r hr => ?_⟩
    cases hr
    exact Sizing.rangeEnd_admits _ _ _ _
  | reads hr =>
    refine ⟨hfits, fun r' hr' => ?_⟩
    cases hr'
    exact (hadmits _ hr).advance _
  | continues _ _ _ => exact ⟨hfits, nofun⟩

theorem Lap.sameAs {c c' : Channel H} {windows windows' : List (Int × Int)}
    (h : Lap (c, windows) (c', windows')) : SameAs c' c := by
  cases h with
  | opens _ => exact ⟨rfl, rfl, rfl⟩
  | reads _ => exact ⟨rfl, rfl, rfl⟩
  | continues _ _ _ => exact ⟨rfl, rfl, rfl⟩

/-- No lap changes the kind of a channel. -/
theorem Lap.kind {c c' : Channel H} {windows windows' : List (Int × Int)} (h : Lap (c, windows) (c', windows')) :
    c'.sizing = .wholeObject ↔ c.sizing = .wholeObject := by
  cases h with
  | opens _ => exact Sizing.rangeEnd_eq_wholeObject _ _ _ _
  | reads _ => exact Iff.rfl
  | continues _ _ _ => exact Iff.rfl

/-! ## Filling in laps -/

/-- The range to be read next is there, or is opened in a lap. -/
theorem ensureRange_laps {need : Int} {c c₁ : Channel H} {s s₁ : Listed σ} {r : OpenRange H}
    (h : c.ensureRange t.listing need s = (.ok r, c₁, s₁)) : Laps (c, s.windows) (c₁, s₁.windows) := by
  cases hr : c.range with
  | none =>
    have hnoted : (c.noted t.listing need s).windows = s.windows := noteChange_windows _ _ _
    rw [ensureRange_of_none hr] at h
    split at h
    · cases h
    · rename_i hopen
      cases h
      rw [Transport.listing_openPinned_windows hopen, hnoted]
      exact .single (.opens hr)
  | some r' =>
    rw [ensureRange_of_range need hr] at h
    cases h
    exact .refl

variable (ht : t.Steady o v)
include ht

/-- A range can be opened at any position. -/
theorem Placed.ensures {need : Int} {c c₁ : Channel H} {s s₁ : σ} {e : ReadError} (hp : Placed v o c s) :
    c.ensureRange t need s ≠ (.error e, c₁, s₁) := by
  intro h
  cases hr : c.range with
  | none =>
    obtain rfl := hp.object
    obtain ⟨hw, -⟩ := nextStop_window need hp.nonneg hp.le_size
    have hidle := hp.holds
    rw [hr] at hidle
    obtain ⟨a, s', hopen⟩ := ht.opens (noteChange_keeps (o := c.object) ht.note_idle _ hidle) hw
    rw [ensureRange_of_none hr] at h
    unfold noted at h
    rw [hopen] at h
    cases h
  | some r =>
    rw [ensureRange_of_range need hr] at h
    cases h

/-- Filling a buffer goes on in laps, and does not fail. -/
theorem Fills.laps {want n : Nat} {gap : Nat → Nat → ByteArray} {got : Filling} {c c' : Channel H} {s s' : Listed σ}
    {a : Outcome ReadError Filling} (h : Fills t.listing want gap n got c s a c' s') (hp : Placed v.listing o c s)
    (ha : Aligned c) (hwant : 0 < want) (hlt : got.count < want) :
    Laps (c, s.windows) (c', s'.windows) ∧ (∀ e, a ≠ .failed e) ∧ ∀ got', a = .done got' → c'.range.isSome := by
  have hlist := ht.listing
  induction h with
  | stalled => exact ⟨.refl, nofun, nofun⟩
  | notOpened hensure => exact absurd hensure (hp.ensures hlist)
  | failed hensure hread =>
    obtain ⟨hr, -, -, hp₁⟩ := ensureRange_placed hlist.toHonest hp ha hensure
    obtain ⟨hstands, hw⟩ := hp₁.range hr
    exact absurd hread (hlist.reads hstands hw (Filling.room_pos hwant hlt))
  | cutShort hensure hread hstop _ =>
    obtain ⟨hr, hcursor, hposition, hp₁⟩ := ensureRange_placed hlist.toHonest hp ha hensure
    obtain ⟨hstands, hw⟩ := hp₁.range hr
    have hend := hlist.ends hstands hw (Filling.room_pos hwant hlt) hread
    omega
  | @continued n got c s r c₁ s₁ bytes h s₂ a c' s' hensure hread hstop hsize rest ih =>
    obtain ⟨hr, hcursor, hposition, hp₁⟩ := ensureRange_placed hlist.toHonest hp ha hensure
    obtain ⟨hstands, hw⟩ := hp₁.range hr
    have hidle := hlist.closeQuietly c₁.object (hlist.ended hstands hw hread)
    have hcount : (got.add gap want bytes 0).count = got.count := Int.add_zero _
    have hwindows : (t.listing.closeQuietly c₁.object h s₂).windows = s₁.windows := by
      rw [Transport.listing_closeQuietly_windows, (Transport.listing_read hread).2]
    obtain ⟨hlaps, hends⟩ := ih (hp₁.drop hidle) nofun (by omega)
    rw [hwindows] at hlaps
    exact ⟨((ensureRange_laps hensure).tail (.continues hr hstop hsize)).trans hlaps, hends⟩
  | @ended n got c s r c₁ s₁ bytes h s₂ hensure hread _ _ =>
    have hr := ensureRange_ok hensure
    have hlap : Lap (c₁, s₁.windows) ({ c₁ with range := some { r with handle := h } }, s₂.windows) := by
      have hreads : Lap (c₁, s₁.windows) _ := .reads (h := h) (n := 0) hr
      rw [(Transport.listing_read hread).2]
      simpa [OpenRange.advance] using hreads
    exact ⟨(ensureRange_laps hensure).tail hlap, nofun, fun _ _ => rfl⟩
  | full hensure hread _ =>
    rw [afterRead_windows, (Transport.listing_read hread).2]
    exact ⟨(ensureRange_laps hensure).tail (.reads (ensureRange_ok hensure)), nofun, fun _ _ => rfl⟩
  | @more n got c s r c₁ s₁ bytes excess h s₂ a c' s' hensure hread hmore rest ih =>
    obtain ⟨hr, hcursor, hposition, hp₁⟩ := ensureRange_placed hlist.toHonest hp ha hensure
    obtain ⟨hp₂, ha₂⟩ := hp₁.read hlist.toHonest hr (hcursor.trans hposition.symm) hread
    obtain ⟨hlaps, hends⟩ := ih hp₂ ha₂ hmore
    rw [afterRead_windows, (Transport.listing_read hread).2] at hlaps
    exact ⟨((ensureRange_laps hensure).tail (.reads hr)).trans hlaps, hends⟩

/-! ## Deliveries -/

/-- Skipping ahead does not fail. -/
theorem Skips.not_failed {n : Nat} {c c' : Channel H} {s s' : σ} {a : Outcome ReadError Unit}
    (h : Skips t n c s a c' s') (hp : Placed v o c s) (hahead : ∀ r, c.range = some r → r.cursor < c.position) :
    ∀ e, a ≠ .failed e := by
  induction h with
  | stalled => exact nofun
  | noRange _ => exact nofun
  | failed hr hread =>
    obtain ⟨hstands, hw⟩ := hp.range hr
    exact absurd hread (ht.reads hstands hw (skipRoom_pos (hahead _ hr)))
  | ended _ _ => exact nofun
  | arrived _ _ _ => exact nofun
  | onward hr hread hlt _ ih =>
    obtain ⟨-, -, -, hholds⟩ := hp.delivered ht.toHonest hr hread
    refine ih ⟨hp.object, hp.nonneg, hp.le_size, hholds⟩ fun r' hr' => ?_
    cases hr'
    exact hlt

/-- Neither does bringing the range to the position. -/
theorem reposition_not_failed {n : Nat} {c c₁ : Channel H} {s s₁ : σ} {e : ReadError} (hp : Placed v o c s) :
    reposition t n c s ≠ (.failed e, c₁, s₁) := by
  intro h
  cases hr : c.range with
  | none =>
    rw [reposition_of_none n hr] at h
    cases h
  | some r =>
    rw [reposition_of_range n hr] at h
    split at h
    · cases h
    · split at h
      · rename_i hskip
        obtain ⟨-, hahead, -⟩ := canSkip_ahead hskip
        have hskips := skips_skip (t := t) n c s
        rw [h] at hskips
        refine hskips.not_failed ht hp (fun r' hr' => ?_) e rfl
        cases hr.symm.trans hr'
        exact hahead
      · cases h

/-- A delivery brings the range to the position and goes on in laps, unless it stalls before. It does not fail. -/
theorem Delivers.laps {n want : Nat} {gap : Nat → Nat → ByteArray} {c c' : Channel H} {s s' : Listed σ}
    {a : Outcome ReadError Filling} (h : Delivers t.listing n want gap c s a c' s') (hp : Placed v.listing o c s)
    (hwant : 0 < want) :
    ∃ a₁ c₁ s₁, reposition t.listing n c s = (a₁, c₁, s₁) ∧
      ((a₁ = .done () ∧ Laps (c₁, s.windows) (c', s'.windows)) ∨
        (a = .stalled ∧ c' = c₁ ∧ s'.windows = s.windows)) ∧
      (∀ e, a ≠ .failed e) ∧ ∀ got, a = .done got → c'.range.isSome := by
  have hlist := ht.listing
  have hbefore := reposition_placed (n := n) hlist.toHonest hp
  have hwindows := reposition_windows (t := t) n c s
  have hnothing : ({} : Filling).count < (want : Int) := Int.natCast_pos.mpr hwant
  cases h with
  | notSkipped hreposition => exact absurd hreposition (reposition_not_failed hlist hp)
  | stalled hreposition =>
    rw [hreposition] at hwindows
    exact ⟨_, _, _, hreposition, .inr ⟨rfl, rfl, hwindows⟩, nofun, nofun⟩
  | @failed c₁ s₁ e c₂ s₂ hreposition hfills =>
    rw [hreposition] at hbefore
    obtain ⟨-, hends, -⟩ := hfills.laps ht hbefore.1 (hbefore.2 rfl) hwant hnothing
    exact absurd rfl (hends e)
  | filled hreposition hfills _ =>
    rw [hreposition] at hbefore hwindows
    obtain ⟨hlaps, hends⟩ := hfills.laps ht hbefore.1 (hbefore.2 rfl) hwant hnothing
    rw [hwindows] at hlaps
    exact ⟨_, _, _, hreposition, .inl ⟨rfl, hlaps⟩, hends⟩

end RangeRead.Channel
