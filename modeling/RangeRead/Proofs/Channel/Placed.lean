import RangeRead.Proofs.Channel.Step
import RangeRead.Proofs.Transport.Honest

/-!
# Where the open range of a channel stands

Over an honest transport the position of a channel lies within its object, and its range stands where the channel holds
it to stand, in a window of the object (`Placed`). While a buffer is filled the range stands at the position
(`Aligned`); what the answers of a transport then keep of the bytes that have been read is `Filling.Kept`.

Every operation keeps a channel placed (`placed_invariant`). A delivery that comes to its end has read as many bytes as
wanted or up to the end of the object, and has kept what is kept (`Delivers.placed`).
-/

namespace RangeRead

variable {σ H ρ : Type} {t : Transport σ H} {o : ObjectHandle} {v : View σ H}

/-! ## Windows -/

theorem Strategy.extent_window (s : Strategy) {start size : Int} (need : Int) (hle : start ≤ size) :
    start ≤ s.extent start need size ∧ s.extent start need size ≤ size ∧
      (start < size → start < s.extent start need size) := by
  have hpos := s.options.minRangeRequestSize_pos
  unfold extent
  split <;> omega

/-- The range that a channel opens is a window of its object, and not empty before the end. -/
theorem Channel.nextStop_window {c : Channel H} (need : Int) (h0 : 0 ≤ c.position) (hle : c.position ≤ c.object.size) :
    c.object.Window c.position (c.nextStop need) ∧ (c.position < c.object.size → c.position < c.nextStop need) := by
  have hbounds : c.position ≤ c.nextStop need ∧ c.nextStop need ≤ c.object.size ∧
      (c.position < c.object.size → c.position < c.nextStop need) := by
    unfold nextStop Sizing.rangeEnd
    split
    · exact ⟨hle, Int.le_refl _, id⟩
    · exact Strategy.extent_window _ need hle
  exact ⟨⟨h0, hbounds.1, hbounds.2.1⟩, hbounds.2.2⟩

/-- A new range has all the bytes that are needed, and ends within the object. -/
theorem Channel.nextStop_reaches (c : Channel H) (need : Int) :
    min (c.object.size : Int) (c.position + need) ≤ c.nextStop need ∧ c.nextStop need ≤ c.object.size := by
  unfold nextStop Sizing.rangeEnd
  cases c.sizing with
  | wholeObject =>
    dsimp only
    omega
  | adaptive strategy =>
    show _ ≤ Strategy.extent _ _ _ _ ∧ Strategy.extent _ _ _ _ ≤ _
    unfold Strategy.extent
    split
    · omega
    · omega

/-! ## Placed channels -/

/-- A property of what has been read and of the position that the answers of a transport keep. -/
structure Filling.Kept (t : Transport σ H) (o : ObjectHandle) (v : View σ H) (want : Nat)
    (gap : Nat → Nat → ByteArray) (J : Filling → Int → Prop) : Prop where
  ended : ∀ {got h cursor stop s bytes h' s'}, v.stands h cursor stop s → o.Window cursor stop →
    t.read (got.room want) h s = (.endOfStream bytes, h', s') → J got cursor → J (got.add gap want bytes 0) cursor
  delivered : ∀ {got h cursor stop s bytes excess h' s'}, v.stands h cursor stop s → o.Window cursor stop →
    t.read (got.room want) h s = (.delivered bytes excess, h', s') → J got cursor →
      J (got.add gap want bytes (bytes.size + excess)) (cursor + (bytes.size + excess))

namespace Channel

/-- A channel on `o` whose position lies within it and whose range stands where the channel holds it to stand. -/
structure Placed (v : View σ H) (o : ObjectHandle) (c : Channel H) (s : σ) : Prop where
  object : c.object = o
  nonneg : 0 ≤ c.position
  le_size : c.position ≤ o.size
  holds : v.Holds o c.range s

/-- The open range, if there is one, stands at the position. -/
def Aligned (c : Channel H) : Prop := ∀ r, c.range = some r → r.cursor = c.position

theorem Aligned.of_none {c : Channel H} (hr : c.range = none) : Aligned c := fun r hsome => by
  rw [hr] at hsome
  cases hsome

theorem Aligned.of_range {c : Channel H} {r : OpenRange H} (hr : c.range = some r) (h : r.cursor = c.position) :
    Aligned c := fun r' hsome => by
  cases hr.symm.trans hsome
  exact h

theorem Placed.range {c : Channel H} {s : σ} {r : OpenRange H} (h : Placed v o c s) (hr : c.range = some r) :
    v.stands r.handle r.cursor r.stop s ∧ o.Window r.cursor r.stop := by
  have hs := h.holds
  rw [hr] at hs
  exact hs

/-- Without a range nothing has to stand anywhere. -/
theorem Placed.drop {c : Channel H} {s s' : σ} (h : Placed v o c s) (hs : v.idle s') :
    Placed v o { c with range := none } s' where
  object := h.object
  nonneg := h.nonneg
  le_size := h.le_size
  holds := hs

variable (ht : t.Honest o v)
include ht

/-- What a read of the range comes to, if it reports bytes: so many at most, and the range has moved. -/
theorem Placed.delivered {c : Channel H} {s s' : σ} {r : OpenRange H} {want : Nat} {bytes : ByteArray} {excess : Int}
    {h : H} (hp : Placed v o c s) (hr : c.range = some r)
    (hread : t.read want r.handle s = (.delivered bytes excess, h, s')) :
    0 ≤ bytes.size + excess ∧ bytes.size + excess ≤ want ∧ r.cursor + (bytes.size + excess) ≤ r.stop ∧
      v.Holds o (some (r.advance h (bytes.size + excess))) s' := by
  obtain ⟨hstands, hw⟩ := hp.range hr
  obtain ⟨hn, hwant, hstop⟩ := ht.reports hstands hw hread
  exact ⟨hn, hwant, hstop, ht.delivered hstands hw hread, hw.advance hn hstop⟩

theorem Placed.failed {c : Channel H} {s s' : σ} {r : OpenRange H} {want : Nat} {e : ReadError} {h : H}
    (hp : Placed v o c s) (hr : c.range = some r) (hread : t.read want r.handle s = (.failed e, h, s')) :
    Placed v o { c with range := none } (t.closeQuietly c.object h s') := by
  obtain ⟨hstands, hw⟩ := hp.range hr
  obtain ⟨cursor, stop, hleft⟩ := ht.failed hstands hw hread
  exact hp.drop (ht.closeQuietly _ hleft)

theorem Placed.dropRange {c : Channel H} {s : σ} (hp : Placed v o c s) :
    Placed v o (c.dropRange t s).1 (c.dropRange t s).2 := by
  cases hr : c.range with
  | none =>
    rw [dropRange_of_none hr]
    exact hp
  | some r =>
    rw [dropRange_of_range hr]
    exact hp.drop (ht.closeQuietly _ (hp.range hr).1)

/-! ## Bringing the range to the position -/

/-- A skip towards a position that lies ahead ends there, or without a range. -/
theorem Skips.placed {n : Nat} {c c' : Channel H} {s s' : σ} {a : Outcome ReadError Unit} (h : Skips t n c s a c' s')
    (hp : Placed v o c s) (hahead : ∀ r, c.range = some r → r.cursor ≤ c.position) :
    Placed v o c' s' ∧ (a = .done () → Aligned c') := by
  induction h with
  | stalled => exact ⟨hp, fun ha => by cases ha⟩
  | noRange hr => exact ⟨hp, fun _ => .of_none hr⟩
  | failed hr hread => exact ⟨hp.failed ht hr hread, fun ha => by cases ha⟩
  | ended hr hread =>
    obtain ⟨hstands, hw⟩ := hp.range hr
    have hleft := ht.ended hstands hw hread
    exact ⟨hp.drop (ht.closeQuietly _ (ht.note_stands _ hleft)), fun _ => .of_none rfl⟩
  | @arrived n c s r bytes excess h s' hr hread hle =>
    obtain ⟨hn, hwant, hstop, hholds⟩ := hp.delivered ht hr hread
    have hbefore := hahead r hr
    have harrived : r.cursor + (bytes.size + excess) = c.position := by omega
    exact ⟨⟨hp.object, hp.nonneg, hp.le_size, hholds⟩, fun _ => .of_range rfl harrived⟩
  | @onward n c s r bytes excess h s' a c' s'' hr hread hlt rest ih =>
    obtain ⟨hn, hwant, hstop, hholds⟩ := hp.delivered ht hr hread
    refine ih ⟨hp.object, hp.nonneg, hp.le_size, hholds⟩ (fun r' hsome => ?_)
    cases hsome
    exact Int.le_of_lt hlt

/-- Before the buffer is filled the range stands at the position, if there is one. -/
theorem reposition_placed {n : Nat} {c : Channel H} {s : σ} (hp : Placed v o c s) :
    Placed v o (reposition t n c s).2.1 (reposition t n c s).2.2 ∧
      ((reposition t n c s).1 = .done () → Aligned (reposition t n c s).2.1) := by
  cases hr : c.range with
  | none =>
    rw [reposition_of_none n hr]
    exact ⟨hp, fun _ => .of_none hr⟩
  | some r =>
    rw [reposition_of_range n hr]
    split
    · rename_i hat
      exact ⟨hp, fun _ => .of_range hr hat.symm⟩
    · split
      · rename_i hskip
        refine (skips_skip n c s).placed ht hp (fun r' hsome => ?_)
        rw [hr] at hsome
        cases hsome
        exact Int.le_of_lt (canSkip_ahead hskip).2.1
      · have hnoted := noteChange_keeps (o := c.object) ht.note_stands
          (c.sizing.observeSeek c.position r.cursor).1 (hp.range hr).1
        have hidle := ht.closeQuietly c.object hnoted
        exact ⟨⟨hp.object, hp.nonneg, hp.le_size, hidle⟩, fun _ => .of_none rfl⟩

/-! ## Filling -/

/-- What a read at the position reports moves the position and the range alike. -/
theorem Placed.read {c : Channel H} {s s' : σ} {r : OpenRange H} {want : Nat} {bytes : ByteArray} {excess : Int} {h : H}
    (hp : Placed v o c s) (hr : c.range = some r) (hcursor : r.cursor = c.position)
    (hread : t.read want r.handle s = (.delivered bytes excess, h, s')) :
    let c' : Channel H := { c with
      position := c.position + (bytes.size + excess)
      range := some (r.advance h (bytes.size + excess)) }
    Placed v o c' (c.afterRead t r.stop (bytes.size + excess) s') ∧ Aligned c' := by
  obtain ⟨hn, -, hstop, hstands, hw⟩ := hp.delivered ht hr hread
  have h0 := hp.nonneg
  have hsize := hw.le_size
  refine ⟨⟨hp.object, ?_, ?_, afterRead_keeps ht.note_stands c r.stop _ hstands, hw⟩, .of_range rfl ?_⟩
  · show 0 ≤ c.position + (bytes.size + excess)
    omega
  · show c.position + (bytes.size + excess) ≤ o.size
    have hle : (r.advance h (bytes.size + excess)).stop = r.stop := rfl
    omega
  · show r.cursor + (bytes.size + excess) = c.position + (bytes.size + excess)
    rw [hcursor]

/-- The range that is read next stands at the position. -/
theorem ensureRange_placed {need : Int} {c c₁ : Channel H} {s s₁ : σ} {r : OpenRange H} (hp : Placed v o c s)
    (ha : Aligned c) (h : c.ensureRange t need s = (.ok r, c₁, s₁)) :
    c₁.range = some r ∧ r.cursor = c.position ∧ c₁.position = c.position ∧ Placed v o c₁ s₁ := by
  cases hr : c.range with
  | none =>
    have hidle := hp.holds
    rw [hr] at hidle
    rw [ensureRange_of_none hr] at h
    split at h
    · cases h
    · rename_i a s' hopen
      cases h
      have hle := hp.le_size
      rw [← hp.object] at hle
      obtain ⟨hw, -⟩ := nextStop_window need hp.nonneg hle
      rw [hp.object] at hopen hw
      have hstands := ht.openPinned_ok (noteChange_keeps ht.note_idle _ hidle) hw hopen
      exact ⟨rfl, rfl, rfl, hp.object, hp.nonneg, hp.le_size, hstands, hw⟩
  | some r' =>
    rw [ensureRange_of_range need hr] at h
    cases h
    exact ⟨hr, ha r hr, rfl, hp⟩

theorem ensureRange_error_placed {need : Int} {c c₁ : Channel H} {s s₁ : σ} {e : ReadError} (hp : Placed v o c s)
    (h : c.ensureRange t need s = (.error e, c₁, s₁)) : Placed v o c₁ s₁ := by
  cases hr : c.range with
  | none =>
    have hidle := hp.holds
    rw [hr] at hidle
    rw [ensureRange_of_none hr] at h
    split at h
    · rename_i e' s' hopen
      cases h
      have hle := hp.le_size
      rw [← hp.object] at hle
      obtain ⟨hw, -⟩ := nextStop_window need hp.nonneg hle
      rw [hp.object] at hopen hw
      have hleft := ht.openPinned_error (noteChange_keeps ht.note_idle _ hidle) hw hopen
      exact ⟨hp.object, hp.nonneg, hp.le_size, by rw [hr]; exact hleft⟩
    · cases h
  | some r =>
    rw [ensureRange_of_range need hr] at h
    cases h

/-- Filling keeps the channel placed, and keeps what is kept of the filling. It comes to its end when as many bytes
as wanted are there, or at the end of the object. -/
theorem Fills.placed {want n : Nat} {gap : Nat → Nat → ByteArray} {J : Filling → Int → Prop}
    (hJ : Filling.Kept t o v want gap J) {got : Filling} {c c' : Channel H} {s s' : σ} {a : Outcome ReadError Filling}
    (h : Fills t want gap n got c s a c' s') (hp : Placed v o c s) (ha : Aligned c) (hj : J got c.position) :
    Placed v o c' s' ∧
      ∀ got', a = .done got' → J got' c'.position ∧ ((want : Int) ≤ got'.count ∨ c'.position = o.size) := by
  induction h with
  | stalled => exact ⟨hp, fun _ hdone => by cases hdone⟩
  | notOpened hensure => exact ⟨ensureRange_error_placed ht hp hensure, fun _ hdone => by cases hdone⟩
  | failed hensure hread =>
    obtain ⟨hr, -, -, hp₁⟩ := ensureRange_placed ht hp ha hensure
    exact ⟨hp₁.failed ht hr hread, fun _ hdone => by cases hdone⟩
  | cutShort hensure hread _ _ =>
    obtain ⟨hr, -, -, hp₁⟩ := ensureRange_placed ht hp ha hensure
    obtain ⟨hstands, hw⟩ := hp₁.range hr
    exact ⟨hp₁.drop (ht.closeQuietly _ (ht.ended hstands hw hread)), fun _ hdone => by cases hdone⟩
  | continued hensure hread _ _ _ ih =>
    obtain ⟨hr, hcursor, hposition, hp₁⟩ := ensureRange_placed ht hp ha hensure
    obtain ⟨hstands, hw⟩ := hp₁.range hr
    rw [← hcursor] at hj
    have hj₁ := hJ.ended hstands hw hread hj
    rw [hcursor, ← hposition] at hj₁
    exact ih (hp₁.drop (ht.closeQuietly _ (ht.ended hstands hw hread))) (fun _ hsome => by cases hsome) hj₁
  | ended hensure hread hsize _ =>
    obtain ⟨hr, hcursor, hposition, hp₁⟩ := ensureRange_placed ht hp ha hensure
    obtain ⟨hstands, hw⟩ := hp₁.range hr
    rw [← hcursor] at hj
    have hj₁ := hJ.ended hstands hw hread hj
    rw [hcursor, ← hposition] at hj₁
    rw [hp₁.object] at hsize
    refine ⟨⟨hp₁.object, hp₁.nonneg, hp₁.le_size, ht.ended hstands hw hread, hw⟩, fun got' hdone => ?_⟩
    cases hdone
    exact ⟨hj₁, .inr hsize⟩
  | full hensure hread hle =>
    obtain ⟨hr, hcursor, hposition, hp₁⟩ := ensureRange_placed ht hp ha hensure
    obtain ⟨hstands, hw⟩ := hp₁.range hr
    rw [← hcursor] at hj
    have hj₁ := hJ.delivered hstands hw hread hj
    rw [hcursor, ← hposition] at hj₁
    refine ⟨(hp₁.read ht hr (hcursor.trans hposition.symm) hread).1, fun got' hdone => ?_⟩
    cases hdone
    exact ⟨hj₁, .inl hle⟩
  | more hensure hread _ _ ih =>
    obtain ⟨hr, hcursor, hposition, hp₁⟩ := ensureRange_placed ht hp ha hensure
    obtain ⟨hstands, hw⟩ := hp₁.range hr
    rw [← hcursor] at hj
    have hj₁ := hJ.delivered hstands hw hread hj
    rw [hcursor, ← hposition] at hj₁
    obtain ⟨hp₂, ha₂⟩ := hp₁.read ht hr (hcursor.trans hposition.symm) hread
    exact ih hp₂ ha₂ hj₁

/-! ## Deliveries -/

/-- A delivery that comes to its end has kept what is kept of the filling, and has read as many bytes as wanted or up
to the end of the object. -/
theorem Delivers.placed {n want : Nat} {gap : Nat → Nat → ByteArray} {J : Filling → Int → Prop}
    (hJ : Filling.Kept t o v want gap J) {c c' : Channel H} {s s' : σ} {a : Outcome ReadError Filling}
    (h : Delivers t n want gap c s a c' s') (hp : Placed v o c s) (hj : J {} c.position) :
    Placed v o c' s' ∧
      ∀ got, a = .done got → J got c'.position ∧ ((want : Int) ≤ got.count ∨ c'.position = o.size) := by
  obtain ⟨hp₁, ha₁⟩ := reposition_placed (n := n) ht hp
  have hposition := (reposition_sameAs (t := t) n c s).2
  cases h with
  | notSkipped hreposition =>
    rw [hreposition] at hp₁
    exact ⟨⟨hp₁.object, hp.nonneg, hp.le_size, hp₁.holds⟩, fun _ hdone => by cases hdone⟩
  | stalled hreposition =>
    rw [hreposition] at hp₁
    exact ⟨hp₁, fun _ hdone => by cases hdone⟩
  | failed hreposition hfills =>
    rw [hreposition] at hp₁ ha₁ hposition
    rw [← hposition] at hj
    have hp₂ := (hfills.placed ht hJ hp₁ (ha₁ rfl) hj).1
    exact ⟨⟨hp₂.object, hp.nonneg, hp.le_size, hp₂.holds⟩, fun _ hdone => by cases hdone⟩
  | filled hreposition hfills _ =>
    rw [hreposition] at hp₁ ha₁ hposition
    rw [← hposition] at hj
    exact hfills.placed ht hJ hp₁ (ha₁ rfl) hj

omit ht in
/-- What a filling counts is never more than it wants. -/
theorem count_kept (ht : t.Honest o v) (want : Nat) (gap : Nat → Nat → ByteArray) :
    Filling.Kept t o v want gap fun got _ => 0 ≤ got.count ∧ got.count ≤ want where
  ended {got h cursor stop s bytes h' s'} _ _ _ hcount := by
    have hsame : (got.add gap want bytes 0).count = got.count := Int.add_zero _
    rwa [hsame]
  delivered {got h cursor stop s bytes excess h' s'} hstands hw hread hcount := by
    obtain ⟨hn, hroom, -⟩ := ht.reports hstands hw hread
    have hadded : (got.add gap want bytes (bytes.size + excess)).count = got.count + (bytes.size + excess) := rfl
    unfold Filling.room fillOffset at hroom
    rw [if_pos hcount.1] at hroom
    rw [hadded]
    omega

/-- So a delivery that comes to its end counts at most what is wanted. -/
theorem Delivers.count_le {n want : Nat} {gap : Nat → Nat → ByteArray} {c c' : Channel H} {s s' : σ} {got : Filling}
    (h : Delivers t n want gap c s (.done got) c' s') (hp : Placed v o c s) : 0 ≤ got.count ∧ got.count ≤ want := by
  have hnothing : 0 ≤ ({} : Filling).count ∧ ({} : Filling).count ≤ want := ⟨Int.le_refl 0, Int.natCast_nonneg want⟩
  exact ((h.placed ht (count_kept ht want gap) hp hnothing).2 got rfl).1

/-- Every operation keeps a channel placed. -/
theorem placed_invariant : Invariant t (Placed v o) where
  deliver n want gap hp _ _ := by
    have hJ : Filling.Kept t o v want gap fun _ _ => True :=
      ⟨fun _ _ _ _ => trivial, fun _ _ _ _ => trivial⟩
    exact ((delivers_deliver n want gap _ _).placed ht hJ hp trivial).1
  moveTo {c s target} hp _ h0 hle := by
    rw [hp.object] at hle
    rcases moveTo_eq t target c s with ⟨-, h⟩ | ⟨-, h⟩
    · rw [h]
      exact ⟨hp.object, h0, hle, hp.holds⟩
    · rw [h]
      have hd := hp.dropRange ht
      exact ⟨hd.object, h0, hle, hd.holds⟩
  close {c s} hp hopen := by
    rw [close_of_open hopen]
    have hd := hp.dropRange ht
    exact ⟨hd.object, hd.nonneg, hd.le_size, hd.holds⟩

omit ht in
/-- A new channel on an idle transport is placed. -/
theorem IsNew.placed {c : Channel H} {s : σ} (hnew : IsNew c) (ho : c.object = o) (hs : v.idle s) : Placed v o c s where
  object := ho
  nonneg := Int.le_of_eq hnew.position.symm
  le_size := by
    have hstart := hnew.position
    omega
  holds := by rw [hnew.range]; exact hs

end Channel

end RangeRead
