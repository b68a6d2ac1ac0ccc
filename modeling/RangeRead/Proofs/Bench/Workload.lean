import Mathlib
import RangeRead.Bench.Workload

/-!
# What workloads read

A scan reads an object front to back: what its reads have of the object follows each other from the start to the end
(`sequentialScan_tiles`). A columnar workload reads the footer in two parts, and then groups of four reads in a row
(`columnar_within`), and a random one reads at offsets that are drawn (`randomReads_within`). Where offsets are drawn
below the bound that is asked for (`RandomSource.Ranged`), no read of these leads past the end of the object, and such a
workload is drawn if and only if its reads are shorter than the object.
-/

namespace RangeRead.Bench

/-! ## Reads in a row -/

/-- The reads follow each other from the first offset up to the second, and none is empty. -/
inductive Tiles : Int → Workload → Int → Prop
  | nil (offset : Int) : Tiles offset [] offset
  | cons {start length stop : Int} {reads : Workload} (hlength : 0 < length)
      (hrest : Tiles (start + length) reads stop) : Tiles start ((start, length) :: reads) stop

/-- No read is empty or leads past the end of an object of this size. -/
def Within (size : Int) (workload : Workload) : Prop :=
  ∀ read ∈ workload, 0 ≤ read.1 ∧ 0 < read.2 ∧ read.1 + read.2 ≤ size

/-- What the reads have of an object of this size. -/
def cut (size : Int) (workload : Workload) : Workload :=
  workload.map fun read => (read.1, min read.2 (size - read.1))

theorem Tiles.start_le {start stop : Int} {reads : Workload} (h : Tiles start reads stop) : start ≤ stop := by
  induction h with
  | nil => exact Int.le_refl _
  | cons hlength _ ih => omega

/-- Reads in a row are within what they make up. -/
theorem Tiles.between {start stop : Int} {reads : Workload} (h : Tiles start reads stop) :
    ∀ read ∈ reads, start ≤ read.1 ∧ 0 < read.2 ∧ read.1 + read.2 ≤ stop := by
  induction h with
  | nil => nofun
  | @cons start length stop reads hlength hrest ih =>
    have hle := hrest.start_le
    refine List.forall_mem_cons.mpr ⟨⟨Int.le_refl _, hlength, hle⟩, fun read hmem => ?_⟩
    obtain ⟨hfrom, hsome, hto⟩ := ih read hmem
    exact ⟨by omega, hsome, hto⟩

theorem Tiles.within {start stop size : Int} {reads : Workload} (h : Tiles start reads stop) (h0 : 0 ≤ start)
    (hle : stop ≤ size) : Within size reads := by
  intro read hmem
  obtain ⟨hfrom, hsome, hto⟩ := h.between read hmem
  exact ⟨by omega, hsome, by omega⟩

/-! ## Front to back -/

/-- A step is taken if and only if it starts before the end. -/
theorem lt_stepCount_iff {size step : Int} (hstep : 0 < step) (i : Nat) :
    i < stepCount size step ↔ i * step < size := by
  have hquotient : (i : Int) < (size + step - 1) / step ↔ i * step < size := by
    rw [← Int.add_one_le_iff, Int.le_ediv_iff_mul_le hstep, Int.add_mul, Int.one_mul]
    omega
  unfold stepCount
  rw [if_pos hstep, ← hquotient]
  omega

/-- From the step `i` on the reads of a scan make up what is left of the object. -/
theorem tiles_steps {size step : Int} (hstep : 0 < step) (n i : Nat) (hn : stepCount size step = i + n) :
    Tiles (min (i * step) size) (cut size ((List.range' i n).map fun (j : Nat) => (j * step, step))) size := by
  induction n generalizing i with
  | zero =>
    have hend : size ≤ i * step := by
      have hlast : i < stepCount size step ↔ i * step < size := lt_stepCount_iff hstep i
      omega
    rw [Int.min_eq_right hend]
    exact .nil size
  | succ n ih =>
    have hlt : i * step < size := (lt_stepCount_iff hstep i).mp (by omega)
    have hrest := ih (i + 1) (by omega)
    have hnext : min (((i + 1 : Nat) : Int) * step) size = i * step + min step (size - i * step) := by
      push_cast
      rw [Int.add_mul]
      omega
    rw [hnext] at hrest
    have hsome : 0 < min step (size - i * step) := by omega
    rw [Int.min_eq_left (Int.le_of_lt hlt), List.range'_succ]
    exact .cons hsome hrest

/-- A scan exists, and what its reads have of the object makes up all of it, in order. -/
theorem sequentialScan_tiles {size readSize : Int} (hsize : 0 ≤ size) (hread : 0 < readSize) :
    ∃ workload, sequentialScan size readSize = .ok workload ∧ Tiles 0 (cut size workload) size ∧
      ∀ read ∈ workload, 0 ≤ read.1 ∧ read.1 < size ∧ read.2 = readSize := by
  refine ⟨_, if_neg (Int.ne_of_gt hread), ?_, fun read hmem => ?_⟩
  · have htiles := @tiles_steps size readSize hread (stepCount size readSize) 0 (Nat.zero_add _).symm
    have hstart : min (((0 : Nat) : Int) * readSize) size = 0 := by
      rw [Int.natCast_zero, Int.zero_mul]
      exact Int.min_eq_left hsize
    rw [hstart, ← List.range_eq_range'] at htiles
    exact htiles
  · obtain ⟨i, hi, rfl⟩ := List.mem_map.mp hmem
    have hlt := (lt_stepCount_iff hread i).mp (List.mem_range.mp hi)
    exact ⟨Int.mul_nonneg (Int.natCast_nonneg i) (Int.le_of_lt hread), hlt, rfl⟩

/-! ## Drawn at random -/

variable {γ : Type} {source : RandomSource γ}

/-- A number is drawn from the bounds that are asked for, unless there is none between them. -/
structure RandomSource.Ranged (source : RandomSource γ) : Prop where
  draws : ∀ {a b : Int} (g : γ), a < b → ∃ x g', source.draw a b g = (.ok x, g') ∧ a ≤ x ∧ x < b
  refuses : ∀ {a b : Int} (g : γ), b ≤ a → ∃ e g', source.draw a b g = (.error e, g')

/-- Offsets that are drawn are below the bound. -/
theorem drawOffsets_between (hranged : source.Ranged) {bound : Int} {count : Nat} {g g' : γ} {offsets : List Int}
    (h : drawOffsets source bound count g = (.ok offsets, g')) :
    offsets.length = count ∧ ∀ offset ∈ offsets, 0 ≤ offset ∧ offset < bound := by
  induction count generalizing g offsets with
  | zero =>
    cases h
    exact ⟨rfl, nofun⟩
  | succ count ih =>
    unfold drawOffsets at h
    rcases Int.lt_or_le 0 bound with hpos | hnone
    · obtain ⟨x, g₁, hdraw, h0, hlt⟩ := hranged.draws g hpos
      rw [hdraw] at h
      dsimp only at h
      split at h
      · rename_i hrest
        cases h
        obtain ⟨hlength, hall⟩ := ih hrest
        exact ⟨congrArg (· + 1) hlength, List.forall_mem_cons.mpr ⟨⟨h0, hlt⟩, hall⟩⟩
      · rename_i hfailed
        exact absurd h (hfailed _ _)
    · obtain ⟨e, g₁, hdraw⟩ := hranged.refuses g hnone
      rw [hdraw] at h
      cases h

/-- Offsets are drawn if and only if there are some below the bound. -/
theorem drawOffsets_ok_iff (hranged : source.Ranged) (bound : Int) (count : Nat) (g : γ) :
    (∃ offsets g', drawOffsets source bound (count + 1) g = (.ok offsets, g')) ↔ 0 < bound := by
  constructor
  · rintro ⟨offsets, g', h⟩
    obtain ⟨hlength, hall⟩ := drawOffsets_between hranged h
    obtain ⟨offset, hmem⟩ := List.exists_mem_of_length_pos (l := offsets) (by omega)
    obtain ⟨h0, hlt⟩ := hall offset hmem
    omega
  · intro hpos
    induction count generalizing g with
    | zero =>
      obtain ⟨x, g₁, hdraw, -⟩ := hranged.draws g hpos
      unfold drawOffsets
      rw [hdraw]
      exact ⟨[x], g₁, rfl⟩
    | succ count ih =>
      obtain ⟨x, g₁, hdraw, -⟩ := hranged.draws g hpos
      obtain ⟨offsets, g', hrest⟩ := ih g₁
      unfold drawOffsets
      rw [hdraw]
      dsimp only
      rw [hrest]
      exact ⟨x :: offsets, g', rfl⟩

/-- Four reads in a row make up four times their size. -/
theorem chunkReads_tiles {readSize : Int} (hread : 0 < readSize) (start : Int) :
    Tiles start (chunkReads start readSize) (start + readSize * 4) := by
  have hoffsets : chunkReads start readSize = [(start, readSize), (start + readSize, readSize),
      (start + readSize + readSize, readSize), (start + readSize + readSize + readSize, readSize)] := by
    unfold chunkReads
    simp only [List.range, List.range.loop, List.map_cons, List.map_nil]
    push_cast
    ring_nf
  have hend : start + readSize * 4 = start + readSize + readSize + readSize + readSize := by ring
  rw [hoffsets, hend]
  exact .cons hread (.cons hread (.cons hread (.cons hread (.nil _))))

/-- A workload reads the footer of an object in two parts, and then in groups of four reads in a row. -/
def ReadsColumns (size readSize : Int) (workload : Workload) : Prop :=
  ∃ last first groups, workload = last :: first :: List.flatten groups ∧
    Tiles (size - 64 * 1024) [first, last] size ∧ groups.length = 32 ∧
    ∀ group ∈ groups, group.map Prod.snd = List.replicate 4 readSize ∧
      ∃ start, Tiles start group (start + readSize * 4)

/-- A columnar workload, if it is drawn, reads the footer and columns of the object. -/
theorem columnar_within (hranged : source.Ranged) {size readSize : Int} (hfooter : 64 * 1024 ≤ size)
    (hread : 0 < readSize) {g g' : γ} {workload : Workload} (h : columnar source size readSize g = (.ok workload, g')) :
    Within size workload ∧ ReadsColumns size readSize workload := by
  unfold columnar at h
  rcases hdrawn : drawOffsets source (size - readSize * 4) 32 g with ⟨e | offsets, g₁⟩
  · rw [hdrawn] at h
    cases h
  · rw [hdrawn] at h
    cases h
    obtain ⟨hlength, hall⟩ := drawOffsets_between hranged hdrawn
    have hsize : footerSize = 65536 := rfl
    have hfooterTiles : Tiles (size - footerSize) [(size - footerSize, footerSize - 8), (size - 8, 8)] size := by
      have hsecond : size - footerSize + (footerSize - 8) = size - 8 := by omega
      have hend : size - 8 + 8 = size := by omega
      refine .cons (by omega) ?_
      rw [hsecond]
      refine .cons (by decide) ?_
      rw [hend]
      exact .nil size
    have hgroups : ∀ group ∈ offsets.map (chunkReads · readSize), group.map Prod.snd = List.replicate 4 readSize ∧
        ∃ start, 0 ≤ start ∧ start + readSize * 4 < size ∧ Tiles start group (start + readSize * 4) := by
      intro group hmem
      obtain ⟨start, hstart, rfl⟩ := List.mem_map.mp hmem
      obtain ⟨h0, hlt⟩ := hall start hstart
      exact ⟨rfl, start, h0, by omega, chunkReads_tiles hread start⟩
    refine ⟨?_, _, _, offsets.map (chunkReads · readSize), rfl, hfooterTiles, by simp [hlength], fun group hmem => ?_⟩
    · have hboth := hfooterTiles.within (by omega) (Int.le_refl size)
      refine List.forall_mem_cons.mpr ⟨hboth _ (by simp), List.forall_mem_cons.mpr ⟨hboth _ (by simp), ?_⟩⟩
      intro read hmem
      obtain ⟨group, hgroup, hin⟩ := List.mem_flatten.mp hmem
      obtain ⟨-, start, h0, hlt, htiles⟩ := hgroups group hgroup
      exact htiles.within h0 (Int.le_of_lt hlt) read hin
    · obtain ⟨hlengths, start, -, -, htiles⟩ := hgroups group hmem
      exact ⟨hlengths, start, htiles⟩

/-- A columnar workload is drawn if and only if a group is shorter than the object. -/
theorem columnar_ok_iff (hranged : source.Ranged) (size readSize : Int) (g : γ) :
    (∃ workload g', columnar source size readSize g = (.ok workload, g')) ↔ readSize * 4 < size := by
  have hbound : readSize * 4 < size ↔ 0 < size - readSize * 4 := by omega
  rw [hbound, ← drawOffsets_ok_iff hranged (size - readSize * 4) 31 g]
  unfold columnar
  rcases drawOffsets source (size - readSize * 4) 32 g with ⟨e | offsets, g'⟩
  · exact ⟨nofun, nofun⟩
  · exact ⟨fun _ => ⟨offsets, g', rfl⟩, fun _ => ⟨_, g', rfl⟩⟩

/-- The reads of a random workload, if it is drawn, are within the object. -/
theorem randomReads_within (hranged : source.Ranged) {size readSize : Int} (hread : 0 < readSize) {g g' : γ}
    {workload : Workload} (h : randomReads source size readSize g = (.ok workload, g')) :
    Within size workload ∧ workload.length = 128 ∧ ∀ read ∈ workload, read.2 = readSize := by
  unfold randomReads at h
  rcases hdrawn : drawOffsets source (size - readSize) 128 g with ⟨e | offsets, g₁⟩
  · rw [hdrawn] at h
    cases h
  · rw [hdrawn] at h
    cases h
    obtain ⟨hlength, hall⟩ := drawOffsets_between hranged hdrawn
    refine ⟨fun read hmem => ?_, by simp [hlength], fun read hmem => ?_⟩
    · obtain ⟨start, hstart, rfl⟩ := List.mem_map.mp hmem
      obtain ⟨h0, hlt⟩ := hall start hstart
      exact ⟨h0, hread, by dsimp only; omega⟩
    · obtain ⟨start, -, rfl⟩ := List.mem_map.mp hmem
      rfl

/-- A random workload is drawn if and only if a read is shorter than the object. -/
theorem randomReads_ok_iff (hranged : source.Ranged) (size readSize : Int) (g : γ) :
    (∃ workload g', randomReads source size readSize g = (.ok workload, g')) ↔ readSize < size := by
  have hbound : readSize < size ↔ 0 < size - readSize := by omega
  rw [hbound, ← drawOffsets_ok_iff hranged (size - readSize) 127 g]
  unfold randomReads
  rcases drawOffsets source (size - readSize) 128 g with ⟨e | offsets, g'⟩
  · exact ⟨nofun, nofun⟩
  · exact ⟨fun _ => ⟨offsets, g', rfl⟩, fun _ => ⟨_, g', rfl⟩⟩

end RangeRead.Bench
