import RangeRead.Bench.Generator
import RangeRead.Bench.Run
import RangeRead.Proofs.Bench.Workload
import RangeRead.Proofs.Store.Refinement
import RangeRead.Proofs.Transport.Layers

/-!
# Replaying a workload

A workload does a seek and a read of each of its reads (`operations`). Over a reliable transport, with memory for the
object, replaying it is the run of these, and every read delivers the bytes that it is due (`replays_of_reliable`). So
the workloads of a benchmark, which keep to the object, replay completely: the reads of a scan deliver the object in
order, and all others deliver their full length (`workloads_replay`).
-/

namespace RangeRead

/-- In the state `s` a transport passes its calls on to a store that serves the object. -/
def Transport.WorksOver {τ K : Type} (t : Transport τ K) (o : ObjectHandle) (data : ByteArray) (s : τ) : Prop :=
  ∃ (σ C : Type) (store : Store σ C) (I : σ → Prop) (handle : K → StoreRange C) (state : τ → σ),
    store.Serves o data I ∧ t.Covers store.transport handle state ∧ I (state s)

namespace Bench

variable {σ H : Type} {t : Transport σ H} {o : ObjectHandle} {data : ByteArray} {v : View σ H}

/-! ## What reads are due -/

/-- How many bytes a read of an object of this size is due. -/
def dueTo (size : Nat) (read : Int × Int) : Nat := due (size - read.1.toNat) (some read.2)

/-- The bytes that a read is due. -/
def bytesDue (data : ByteArray) (read : Int × Int) : ByteArray :=
  data.extract read.1.toNat (read.1.toNat + dueTo data.size read)

/-- What a workload does with a channel. -/
def operations (workload : Workload) : List Operation :=
  workload.flatMap fun read => [.seek read.1 0, .read (some read.2)]

/-- What that comes to on an object with these bytes. -/
def answers (data : ByteArray) (workload : Workload) : List (Outcome ReadError Answer) :=
  workload.flatMap fun read => [.done (.position read.1), .done (.bytes (bytesDue data read))]

theorem size_bytesDue {read : Int × Int} (hle : read.1 ≤ data.size) :
    (bytesDue data read).size = dueTo data.size read := by
  have hdue := due_le (data.size - read.1.toNat) (some read.2)
  unfold bytesDue dueTo
  rw [ByteArray.size_extract]
  omega

/-- A read that does not lead past the end is due its full length. -/
theorem Within.full {workload : Workload} (h : Within data.size workload) :
    ∀ read ∈ workload, ((bytesDue data read).size : Int) = read.2 := by
  intro read hmem
  obtain ⟨h0, hsome, hle⟩ := h read hmem
  rw [size_bytesDue (by omega)]
  unfold dueTo due
  dsimp only
  rw [if_neg (by omega)]
  omega

/-- Reads that make up a part of an object are due the bytes of that part, in order. -/
theorem joined_bytesDue {start stop : Int} {workload : Workload} (h : Tiles start (cut data.size workload) stop)
    (h0 : 0 ≤ start) (hle : stop ≤ data.size) :
    Store.joined (workload.map (bytesDue data)) = data.extract start.toNat stop.toNat := by
  induction workload generalizing start with
  | nil =>
    cases h
    exact ByteArray.extract_same.symm
  | cons read reads ih =>
    obtain ⟨offset, length⟩ := read
    cases h with
    | cons hlength hrest =>
      have hend := hrest.start_le
      have hread : bytesDue data (offset, length) =
          data.extract offset.toNat (offset + min length (data.size - offset)).toNat := by
        unfold bytesDue dueTo due
        dsimp only
        rw [if_neg (by omega)]
        congr 1
        omega
      rw [List.map_cons, Store.joined, ih hrest (by omega), hread, ByteArray.extract_append_extract,
        Nat.min_eq_left (by omega), Nat.max_eq_right (by omega)]

/-! ## Replaying -/

/-- The workload is replayed in full on the channel `c` in the state `s`, with so much memory. -/
structure Replays (t : Transport σ H) (memory n : Nat) (data : ByteArray) (workload : Workload) (c : Channel H)
    (s : σ) : Prop where
  /-- The replay comes to its end, and is the run of its operations. -/
  completes : replay t memory n workload c s =
    (.done (), (c.run ⟨t, none, memory⟩ n (operations workload) ⟨s, ()⟩).2.1,
      (c.run ⟨t, none, memory⟩ n (operations workload) ⟨s, ()⟩).2.2.transport)
  /-- Every read delivers the bytes that it is due. -/
  delivers : (c.run ⟨t, none, memory⟩ n (operations workload) ⟨s, ()⟩).1 = answers data workload

section Reliable

variable (ht : t.Reliable o data v) (hsize : data.size = o.size) {memory n : Nat} (hmemory : o.size ≤ memory)
  (hn : 2 * o.size + 1 < n) {c : Channel H} {s : σ} (hp : Channel.Placed v o c s) (hopen : c.closed = false)
include ht hp hopen

/-- A seek to an offset of the object or to its end succeeds. -/
theorem seek_inside {offset : Int} (h0 : 0 ≤ offset) (hle : offset ≤ o.size) :
    ∃ c' s', c.seek t offset 0 s = (.ok offset, c', s') ∧ Channel.Placed v o c' s' ∧ c'.closed = false ∧
      c'.position = offset := by
  rw [← hp.object] at hle
  obtain ⟨hsame, hposition⟩ := Channel.moveTo_sameAs t offset c s
  have hplaced := (Channel.placed_invariant ht.toHonest).moveTo hp hopen h0 hle
  exact ⟨_, _, Channel.seek_start hopen h0 hle, hplaced, hsame.closed.trans hopen, hposition⟩

include hsize hmemory hn

/-- A read at an offset delivers the bytes that it is due. -/
theorem read_due {offset : Int} (hoffset : c.position = offset) (length : Int) :
    ∃ c' s', c.read ⟨t, none, memory⟩ n (some length) ⟨s, ()⟩ = (.done (bytesDue data (offset, length)), c', ⟨s', ()⟩) ∧
      Channel.Placed v o c' s' ∧ c'.closed = false := by
  let src : Source σ H Unit := ⟨t, none, memory⟩
  have haccepts : src.Accepts := fun _ h => by cases h
  have hdue : dueTo data.size (offset, length) = due (o.size - c.position.toNat) (some length) := by
    rw [hoffset, ← hsize]
    rfl
  have hfits : due (o.size - c.position.toNat) (some length) ≤ src.memory := by
    have hle := due_le (o.size - c.position.toNat) (some length)
    show due (o.size - c.position.toNat) (some length) ≤ memory
    omega
  obtain ⟨bytes, c', ⟨s', u⟩, hread⟩ := @Channel.read_total _ _ _ _ _ _ src ht haccepts n (some length) c ⟨s, ()⟩ hp
    hopen hfits hn
  obtain ⟨⟨hbytes, -⟩, -⟩ := @Channel.read_exact _ _ _ _ _ _ src ht.toTruthful n _ _ _ _ ⟨s, ()⟩ _ hp hread
  have hplaced : Channel.Placed v o (c.read src n (some length) ⟨s, ()⟩).2.1
      (c.read src n (some length) ⟨s, ()⟩).2.2.transport :=
    @Channel.Invariant.perform _ _ _ src _ (Channel.placed_invariant ht.toHonest) c ⟨s, ()⟩ hp n (.read (some length))
  have hsame := @Channel.read_sameAs _ _ _ src n (some length) c ⟨s, ()⟩
  rw [hread] at hplaced hsame
  refine ⟨c', s', ?_, hplaced, hsame.closed.trans hopen⟩
  unfold bytesDue
  rw [hread, hbytes, hdue, hoffset]

end Reliable

/-- If the first seek and the first read succeed, the other reads are replayed after them. -/
theorem replay_cons (memory n : Nat) {offset length : Int} (reads : Workload) {c c₁ c₂ : Channel H} {s s₁ s₂ : σ}
    {bytes : ByteArray} (hseek : c.seek t offset 0 s = (.ok offset, c₁, s₁))
    (hread : c₁.read ⟨t, none, memory⟩ n (some length) ⟨s₁, ()⟩ = (.done bytes, c₂, ⟨s₂, ()⟩)) :
    replay t memory n ((offset, length) :: reads) c s = replay t memory n reads c₂ s₂ := by
  rw [replay, hseek]
  dsimp only
  rw [hread]

/-- Their operations are run before those of the others. -/
theorem run_operations_cons (memory n : Nat) {offset length : Int} (reads : Workload) {c c₁ c₂ : Channel H}
    {s s₁ s₂ : σ} {bytes : ByteArray} (hseek : c.seek t offset 0 s = (.ok offset, c₁, s₁))
    (hread : c₁.read ⟨t, none, memory⟩ n (some length) ⟨s₁, ()⟩ = (.done bytes, c₂, ⟨s₂, ()⟩)) :
    c.run ⟨t, none, memory⟩ n (operations ((offset, length) :: reads)) ⟨s, ()⟩ =
      (.done (.position offset) :: .done (.bytes bytes) ::
          (c₂.run ⟨t, none, memory⟩ n (operations reads) ⟨s₂, ()⟩).1,
        (c₂.run ⟨t, none, memory⟩ n (operations reads) ⟨s₂, ()⟩).2) := by
  let src : Source σ H Unit := ⟨t, none, memory⟩
  have hsought : c.perform src n (.seek offset 0) ⟨s, ()⟩ =
      ((Outcome.ofExcept (c.seek t offset 0 s).1).map .position, (c.seek t offset 0 s).2.1,
        ⟨(c.seek t offset 0 s).2.2, ()⟩) := rfl
  have hdelivered : c₁.perform src n (.read (some length)) ⟨s₁, ()⟩ =
      ((c₁.read src n (some length) ⟨s₁, ()⟩).1.map .bytes, (c₁.read src n (some length) ⟨s₁, ()⟩).2) := rfl
  have hoperations : operations ((offset, length) :: reads) =
      .seek offset 0 :: .read (some length) :: operations reads := rfl
  rw [hseek] at hsought
  rw [hread] at hdelivered
  rw [hoperations, Channel.run_cons, hsought, Channel.run_cons, hdelivered]
  rfl

/-- Over a reliable transport a workload that starts its reads inside the object is replayed. -/
theorem replays_of_reliable (ht : t.Reliable o data v) (hsize : data.size = o.size) {memory n : Nat}
    (hmemory : o.size ≤ memory) (hn : 2 * o.size + 1 < n) {workload : Workload}
    (hinside : ∀ read ∈ workload, 0 ≤ read.1 ∧ read.1 ≤ o.size) {c : Channel H} {s : σ}
    (hp : Channel.Placed v o c s) (hopen : c.closed = false) : Replays t memory n data workload c s := by
  induction workload generalizing c s with
  | nil => exact ⟨rfl, rfl⟩
  | cons read reads ih =>
    obtain ⟨offset, length⟩ := read
    rw [List.forall_mem_cons] at hinside
    obtain ⟨⟨h0, hle⟩, hinside⟩ := hinside
    obtain ⟨c₁, s₁, hseek, hp₁, hopen₁, hposition⟩ := seek_inside ht hp hopen h0 hle
    obtain ⟨c₂, s₂, hread, hp₂, hopen₂⟩ := read_due ht hsize hmemory hn hp₁ hopen₁ hposition length
    obtain ⟨hcompletes, hdelivers⟩ := ih hinside hp₂ hopen₂
    have hrun := run_operations_cons memory n reads hseek hread
    refine ⟨?_, ?_⟩
    · rw [replay_cons memory n reads hseek hread, hrun]
      exact hcompletes
    · rw [hrun, hdelivers]
      rfl

/-! ## The workloads of a benchmark -/

/-- However a channel on an object of this size is configured, the workload is replayed over every transport that works
over a store that serves the object, with memory for the object and enough patience for its bytes. -/
def ReplaysOn (size : Nat) (workload : Workload) : Prop :=
  ∀ {τ K : Type} {t : Transport τ K} {o : ObjectHandle} {data : ByteArray} {s : τ} {c : Channel K} {memory n : Nat},
    t.WorksOver o data s → data.size = o.size → o.size = size → Channel.IsNew c → c.object = o → size ≤ memory →
      2 * size + 1 < n → Replays t memory n data workload c s

/-- Reads that start inside the object, or at its end, are replayed. -/
theorem replaysOn_of_starts {size : Nat} {workload : Workload} (h : ∀ read ∈ workload, 0 ≤ read.1 ∧ read.1 ≤ size) :
    ReplaysOn size workload := by
  rintro τ K t o data s c memory n ⟨σ, C, store, I, handle, state, hserves, hcovers, hs⟩ hsize rfl hnew hobject hmemory
    hn
  have ht := hcovers.reliable (Store.transport_reliable hserves hsize)
  exact replays_of_reliable ht hsize hmemory hn h (hnew.placed hobject hs) hnew.closed

theorem Within.starts {size : Int} {workload : Workload} (h : Within size workload) :
    ∀ read ∈ workload, 0 ≤ read.1 ∧ read.1 ≤ size := by
  intro read hmem
  obtain ⟨h0, hsome, hle⟩ := h read hmem
  exact ⟨h0, by omega⟩

/-- **The workloads of a benchmark keep to the object and replay completely.** What a scan reads of an object makes it
up in order. The reads of a columnar or random workload, drawn in any way, do not lead past its end and deliver their
full length; the footer is read in two parts, and columns in groups of four reads in a row. -/
theorem workloads_replay {k : Nat} (hk : 0 < k) {readSize : Int} (hread : 1 ≤ readSize) :
    let size : Nat := k * 2 ^ 20
    (∃ workload, sequentialScan size readSize = .ok workload ∧ Tiles 0 (cut size workload) size ∧
      ReplaysOn size workload ∧
      ∀ data : ByteArray, data.size = size → Store.joined (workload.map (bytesDue data)) = data) ∧
    ∀ {γ : Type} (source : RandomSource γ), source.Ranged → ∀ (g : γ),
      ((∃ workload g', columnar source size readSize g = (.ok workload, g')) ↔ readSize * 4 < size) ∧
      (∀ workload g', columnar source size readSize g = (.ok workload, g') →
        Within size workload ∧ ReadsColumns size readSize workload ∧ ReplaysOn size workload ∧
        ∀ data : ByteArray, data.size = size → ∀ read ∈ workload, ((bytesDue data read).size : Int) = read.2) ∧
      ((∃ workload g', randomReads source size readSize g = (.ok workload, g')) ↔ readSize < size) ∧
      ∀ workload g', randomReads source size readSize g = (.ok workload, g') →
        Within size workload ∧ (workload.length = 128 ∧ ∀ read ∈ workload, read.2 = readSize) ∧
        ReplaysOn size workload ∧
        ∀ data : ByteArray, data.size = size → ∀ read ∈ workload, ((bytesDue data read).size : Int) = read.2 := by
  intro size
  have hfull : ∀ {workload : Workload}, Within size workload → ∀ data : ByteArray, data.size = size →
      ∀ read ∈ workload, ((bytesDue data read).size : Int) = read.2 := by
    intro workload hwithin data hdata
    rw [← hdata] at hwithin
    exact hwithin.full
  constructor
  · obtain ⟨workload, hscan, htiles, hreads⟩ := sequentialScan_tiles (Int.natCast_nonneg size) hread
    refine ⟨workload, hscan, htiles, replaysOn_of_starts fun read hmem => ?_, fun data hdata => ?_⟩
    · obtain ⟨h0, hlt, -⟩ := hreads read hmem
      exact ⟨h0, Int.le_of_lt hlt⟩
    · rw [← hdata] at htiles
      rw [joined_bytesDue htiles (Int.le_refl 0) (Int.le_refl _), Int.toNat_zero, Int.toNat_natCast,
        ByteArray.extract_zero_size]
  · intro γ source hranged g
    have hfooter : 64 * 1024 ≤ (size : Int) := by
      show (65536 : Int) ≤ ((k * 2 ^ 20 : Nat) : Int)
      omega
    refine ⟨columnar_ok_iff hranged size readSize g, fun workload g' h => ?_,
      randomReads_ok_iff hranged size readSize g, fun workload g' h => ?_⟩
    · obtain ⟨hwithin, hcolumns⟩ := columnar_within hranged hfooter hread h
      exact ⟨hwithin, hcolumns, replaysOn_of_starts hwithin.starts, hfull hwithin⟩
    · obtain ⟨hwithin, hsizes⟩ := randomReads_within hranged hread h
      exact ⟨hwithin, hsizes, replaysOn_of_starts hwithin.starts, hfull hwithin⟩

/-- A generator draws from the bounds that are asked for. -/
theorem Generator.source_ranged : Generator.source.Ranged where
  draws {a b} g hlt := by
    have hbounds := Int.emod_nonneg (g.next.value : Int) (show b - a ≠ 0 by omega)
    have hlast := Int.emod_lt_of_pos (g.next.value : Int) (show 0 < b - a by omega)
    refine ⟨_, _, if_pos hlt, ?_, ?_⟩
    · omega
    · omega
  refuses g hle := ⟨_, _, if_neg (Int.not_lt.mpr hle)⟩

/-- So it is for an object of `2 ^ 20` bytes in memory whose columns are drawn by a generator, with memory for no
more. -/
theorem workloads_replay_memory :
    let object : ObjectHandle := { path := "bench.bin", size := 1048576 }
    let memory : Memory.Objects := [("bench.bin", Buffer.filled 1048576 7)]
    ∃ workload g', columnar Generator.source 1048576 4096 (Generator.ofSeed 0) = (.ok workload, g') ∧
      Within 1048576 workload ∧
      (replay (Memory.store 65535).transport 1048576 2097154 workload (.adaptive object .standard) memory).1 =
        .done () := by
  intro object memory
  obtain ⟨-, hdrawn⟩ := @workloads_replay 1 (by decide) 4096 (by decide)
  obtain ⟨hreturns, hcolumnar, -⟩ := hdrawn Generator.source Generator.source_ranged (Generator.ofSeed 0)
  obtain ⟨workload, g', hworkload⟩ := hreturns.mpr (by decide)
  obtain ⟨hwithin, -, hreplays, -⟩ := hcolumnar workload g' hworkload
  have hsize : (Buffer.filled 1048576 7).size = object.size := Array.size_replicate
  have hworks : (Memory.store 65535).transport.WorksOver object (Buffer.filled 1048576 7) memory :=
    ⟨_, _, _, _, id, id, Memory.store_serves 65535 hsize, .refl _, by simp [memory, object]⟩
  have hreplayed := hreplays (c := .adaptive object .standard) (n := 2097154) hworks hsize rfl (.adaptive _ _) rfl
    (Nat.le_refl 1048576) (by decide)
  exact ⟨workload, g', hworkload, hwithin, by rw [hreplayed.completes]⟩

end Bench

end RangeRead
