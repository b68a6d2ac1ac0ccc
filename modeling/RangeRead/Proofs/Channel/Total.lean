import RangeRead.Proofs.Channel.Placed

/-!
# Deliveries that come to their end

Over a reliable transport every read of a range brings bytes, or tells the end of a range that has been read up to its
end. So the `work` that is left to a filling becomes less with every round, and a delivery with more patience than that
comes to its end (`deliver_total`).
-/

namespace RangeRead.Channel

variable {σ H : Type} {t : Transport σ H} {o : ObjectHandle} {data : ByteArray} {v : View σ H}

/-- A bound on the rounds of a filling: two for every byte that is left, one of which opens a range, and one for a range
that is open. -/
def work (o : ObjectHandle) (c : Channel H) : Int := 2 * (o.size - c.position) + if c.range.isSome then 1 else 0

theorem work_of_none {c : Channel H} (h : c.range = none) : c.work o = 2 * (o.size - c.position) := by
  unfold work
  rw [h]
  exact Int.add_zero _

theorem work_of_some {c : Channel H} {r : OpenRange H} (h : c.range = some r) :
    c.work o = 2 * (o.size - c.position) + 1 := by
  unfold work
  rw [h]
  rfl

theorem work_bounds (o : ObjectHandle) (c : Channel H) :
    2 * (o.size - c.position) ≤ c.work o ∧ c.work o ≤ 2 * (o.size - c.position) + 1 := by
  unfold work
  split <;> omega

variable (ht : t.Reliable o data v)
include ht

/-- A read of an open range brings bytes, or tells the end at the end. -/
theorem Placed.read_total {c : Channel H} {s : σ} {r : OpenRange H} {want : Nat} (hp : Placed v o c s)
    (hr : c.range = some r) (hwant : 0 < want) :
    (r.cursor < r.stop ∧ ∃ bytes h s', t.read want r.handle s = (.delivered bytes 0, h, s') ∧ 0 < bytes.size) ∨
      (r.cursor = r.stop ∧ ∃ h s', t.read want r.handle s = (.endOfStream .empty, h, s')) := by
  obtain ⟨hstands, hw⟩ := hp.range hr
  by_cases hlt : r.cursor < r.stop
  · exact .inl ⟨hlt, ht.reads hstands hw hlt hwant⟩
  · have hend : r.cursor = r.stop := by
      have hle := hw.le
      omega
    rw [hend] at hstands hw
    exact .inr ⟨hend, ht.ends hstands hw hwant⟩

/-- A skip ahead inside the range comes to its end. -/
theorem Skips.total {n : Nat} {c c' : Channel H} {s s' : σ} {a : Outcome ReadError Unit} (h : Skips t n c s a c' s')
    (hp : Placed v o c s) (hpos : 0 < n)
    (hinside : ∀ r, c.range = some r → r.cursor < c.position ∧ c.position < r.stop ∧ c.position - r.cursor < n) :
    a = .done () := by
  induction h with
  | stalled => omega
  | noRange _ => rfl
  | @failed n c s r e h s' hr hread =>
    obtain ⟨hstands, hw⟩ := hp.range hr
    obtain ⟨hlt, hstop, -⟩ := hinside r hr
    obtain ⟨bytes, h', s'', hbytes, -⟩ := ht.reads hstands hw (by omega) (skipRoom_pos hlt)
    rw [hbytes] at hread
    cases hread
  | ended _ _ => rfl
  | arrived _ _ _ => rfl
  | @onward n c s r bytes excess h s' a c' s'' hr hread hlt rest ih =>
    obtain ⟨hn, -, hstop, hholds⟩ := hp.delivered ht.toHonest hr hread
    obtain ⟨hstands, hw⟩ := hp.range hr
    obtain ⟨hbefore, hinside, hleft⟩ := hinside r hr
    obtain ⟨bytes', h', s₁, hbytes, hsize⟩ := ht.reads hstands hw (by omega) (skipRoom_pos hbefore)
    rw [hbytes] at hread
    cases hread
    refine ih ⟨hp.object, hp.nonneg, hp.le_size, hholds⟩ (by omega) (fun r' hr' => ?_)
    cases hr'
    show r.cursor + (bytes.size + 0) < c.position ∧ c.position < r.stop ∧ c.position - (r.cursor + (bytes.size + 0)) < n
    omega

theorem reposition_total {n : Nat} {c : Channel H} {s : σ} (hp : Placed v o c s) (hn : (o.size : Int) < n) :
    (reposition t n c s).1 = .done () := by
  cases hr : c.range with
  | none => rw [reposition_of_none n hr]
  | some r =>
    rw [reposition_of_range n hr]
    split
    · rfl
    · split
      · rename_i hskip
        obtain ⟨-, hahead, hinside⟩ := canSkip_ahead hskip
        obtain ⟨h0, -, hstop⟩ := (hp.range hr).2
        refine (skips_skip n c s).total ht hp (by omega) (fun r' hr' => ?_)
        rw [hr] at hr'
        cases hr'
        omega
      · rfl

/-- A range can be opened at any position, and reaches beyond it before the end. -/
theorem ensureRange_total {need : Int} {c : Channel H} {s : σ} (hp : Placed v o c s) (hr : c.range = none) :
    ∃ r c₁ s₁, c.ensureRange t need s = (.ok r, c₁, s₁) ∧ (c.position < o.size → c.position < r.stop) := by
  obtain rfl := hp.object
  obtain ⟨hw, hlt⟩ := nextStop_window need hp.nonneg hp.le_size
  have hidle := hp.holds
  rw [hr] at hidle
  obtain ⟨h, s', hopen⟩ := ht.opens (noteChange_keeps (o := c.object) ht.note_idle _ hidle) hw
  rw [ensureRange_of_none hr]
  unfold noted
  rw [hopen]
  exact ⟨_, _, _, rfl, hlt⟩

/-- Filling a buffer comes to its end. -/
theorem Fills.total {want n : Nat} {gap : Nat → Nat → ByteArray} {got : Filling} {c c' : Channel H} {s s' : σ}
    {a : Outcome ReadError Filling} (h : Fills t want gap n got c s a c' s') (hp : Placed v o c s) (ha : Aligned c)
    (h0 : 0 ≤ got.count) (hlt : got.count < want) (hn : c.work o < n) : ∃ got', a = .done got' := by
  induction h with
  | @stalled got c s =>
    have hle := hp.le_size
    have hwork := work_bounds o c
    omega
  | @notOpened n got c s e c₁ s₁ hensure =>
    cases hr : c.range with
    | none =>
      obtain ⟨r, c₂, s₂, hopen, -⟩ := ensureRange_total ht hp hr
      rw [hopen] at hensure
      cases hensure
    | some r =>
      rw [ensureRange_of_range _ hr] at hensure
      cases hensure
  | failed hensure hread =>
    obtain ⟨hr, -, -, hp₁⟩ := ensureRange_placed ht.toHonest hp ha hensure
    rcases hp₁.read_total ht hr (Filling.room_pos (by omega) hlt) with ⟨-, bytes, h', s', hbytes, -⟩ | ⟨-, h', s', hend⟩
    · rw [hbytes] at hread
      cases hread
    · rw [hend] at hread
      cases hread
  | cutShort hensure hread hstop _ =>
    obtain ⟨hr, hcursor, hposition, hp₁⟩ := ensureRange_placed ht.toHonest hp ha hensure
    rcases hp₁.read_total ht hr (Filling.room_pos (by omega) hlt) with ⟨-, bytes, h', s', hbytes, -⟩ | ⟨hend, -⟩
    · rw [hbytes] at hread
      cases hread
    · omega
  | @continued n got c s r c₁ s₁ bytes h s₂ a c' s' hensure hread hstop hsize rest ih =>
    obtain ⟨hr, hcursor, hposition, hp₁⟩ := ensureRange_placed ht.toHonest hp ha hensure
    have hidle := ht.closeQuietly c₁.object (ht.ended (hp₁.range hr).1 (hp₁.range hr).2 hread)
    rw [hp₁.object] at hsize
    have hcount : (got.add gap want bytes 0).count = got.count := Int.add_zero _
    refine ih (hp₁.drop hidle) (.of_none rfl) (by omega) (by omega) ?_
    -- a range that is followed by another one was open before, as a new one is not empty
    cases hc : c.range with
    | none =>
      obtain ⟨r', c₂, s₂, hopen, hahead⟩ := @ensureRange_total _ _ _ _ _ _ ht (want - got.count) c s hp hc
      rw [hopen] at hensure
      cases hensure
      have hle := hp.le_size
      omega
    | some r' =>
      rw [work_of_some hc] at hn
      rw [work_of_none rfl]
      dsimp only
      omega
  | ended _ _ _ _ => exact ⟨_, rfl⟩
  | full _ _ _ => exact ⟨_, rfl⟩
  | @more n got c s r c₁ s₁ bytes excess h s₂ a c' s' hensure hread hmore rest ih =>
    obtain ⟨hr, hcursor, hposition, hp₁⟩ := ensureRange_placed ht.toHonest hp ha hensure
    obtain ⟨hp₂, ha₂⟩ := hp₁.read ht.toHonest hr (hcursor.trans hposition.symm) hread
    rcases hp₁.read_total ht hr (Filling.room_pos (by omega) hlt) with
      ⟨-, bytes', h', s', hbytes, hsize⟩ | ⟨-, h', s', hend⟩
    · rw [hbytes] at hread
      cases hread
      have hcount : (got.add gap want bytes (bytes.size + 0)).count = got.count + (bytes.size + 0) := rfl
      refine ih hp₂ ha₂ (by omega) hmore ?_
      have hwork := work_bounds o c
      rw [work_of_some rfl]
      dsimp only
      omega
    · rw [hend] at hread
      cases hread

/-- A delivery over a reliable transport comes to its end, with patience for two rounds for every byte of the object. -/
theorem deliver_total {n want : Nat} (gap : Nat → Nat → ByteArray) {c : Channel H} {s : σ} (hp : Placed v o c s)
    (hwant : 0 < want) (hn : 2 * o.size + 1 < n) : ∃ got c' s', deliver t n want gap c s = (.done got, c', s') := by
  have hdone := reposition_total (n := n) ht hp (by omega)
  obtain ⟨hp₁, ha₁⟩ := reposition_placed (n := n) ht.toHonest hp
  rcases hd : deliver t n want gap c s with ⟨a, c', s'⟩
  have hfilled : ∀ {c₁ s₁ a c₂ s₂}, reposition t n c s = (.done (), c₁, s₁) → Fills t want gap n {} c₁ s₁ a c₂ s₂ →
      ∃ got, a = .done got := by
    intro c₁ s₁ a c₂ s₂ hreposition hfills
    rw [hreposition] at hp₁ ha₁
    have hwork : c₁.work o < n := by
      have h0 := hp₁.nonneg
      have hbounds := work_bounds o c₁
      dsimp only at h0
      omega
    have hroom : (({} : Filling).count : Int) < want := Int.natCast_pos.mpr hwant
    exact hfills.total ht hp₁ (ha₁ rfl) (Int.le_refl 0) hroom hwork
  cases Delivers.of_eq hd with
  | notSkipped hreposition =>
    rw [hreposition] at hdone
    cases hdone
  | stalled hreposition =>
    rw [hreposition] at hdone
    cases hdone
  | failed hreposition hfills =>
    obtain ⟨got, hgot⟩ := hfilled hreposition hfills
    cases hgot
  | filled hreposition hfills _ =>
    obtain ⟨got, rfl⟩ := hfilled hreposition hfills
    exact ⟨got, c', s', rfl⟩

end RangeRead.Channel
