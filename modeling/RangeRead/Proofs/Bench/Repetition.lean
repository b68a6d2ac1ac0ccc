import Mathlib.Data.Vector.Basic
import RangeRead.Main
import RangeRead.Proofs.Bench.Measures

/-!
# Repeating an iteration

An iteration opens a channel, replays a workload on it and closes it. If its pauses are not refused, this demands the
same of the transport whatever came before (`iterationDemand`, `iteration_measures`). It asks for one window at most for
each read, and pulls what the reads are due at least. So however often a benchmark repeats it (`Repeats`), what is
reported describes one iteration (`run_repeats`).
-/

namespace RangeRead

variable {σ C H : Type} {store : Store σ C} {o : ObjectHandle} {data : ByteArray} {I : σ → Prop}

namespace Bench

/-! ## One iteration -/

/-- The channel that is opened on an object with these options. -/
def opened (o : ObjectHandle) (options : ReadOptions) : Channel H :=
  if options.isAdaptive then .adaptive o options else .simple o options

theorem openRead_eq (o : ObjectHandle) (options : ReadOptions) :
    Channel.openRead (some o) (some options) = .ok (opened o options : Channel H) := by
  unfold Channel.openRead opened
  dsimp only [Option.getD_some]
  split <;> rfl

theorem opened_outline (o : ObjectHandle) (options : ReadOptions) :
    (opened o options : Channel H).outline = opened o options := by
  unfold opened
  split <;> rfl

/-- What an iteration does with its channel. -/
def session (workload : Workload) : List Operation := operations workload ++ [.close]

theorem session_cons (read : Int × Int) (reads : Workload) :
    session (read :: reads) = .seek read.1 0 :: .read (some read.2) :: session reads := rfl

/-- What an iteration demands, with so much memory for new buffers. -/
def iterationDemand (memory : Nat) (o : ObjectHandle) (options : ReadOptions) (workload : Workload) : Demand :=
  (opened o options).demands memory (session workload)

theorem session_reads (workload : Workload) : (session workload).countP Operation.isRead = workload.length := by
  induction workload with
  | nil => rfl
  | cons read reads ih =>
    rw [session_cons, List.countP_cons_of_neg Bool.false_ne_true, List.countP_cons_of_pos rfl, ih, List.length_cons]

/-- A workload demands what its first read demands after the move there, and then what the others do. -/
theorem demands_session_cons (memory : Nat) {c : Channel Unit} (hopen : c.closed = false) {offset : Int}
    (h0 : 0 ≤ offset) (hle : offset ≤ c.object.size) (length : Int) (reads : Workload) :
    let first := (c.movedTo offset).demand memory (.read (some length))
    let rest := ((c.movedTo offset).progress memory (.read (some length))).1.demands memory (session reads)
    c.demands memory (session ((offset, length) :: reads)) =
      ⟨first.windows ++ rest.windows, first.pulled + rest.pulled⟩ := by
  intro first rest
  have hseek := @Channel.progress_seek_start memory offset c hopen h0 hle
  have hwindows : (c.demand memory (.seek offset 0)).windows = [] := congrArg Prod.snd hseek
  have hpulled : (c.demand memory (.seek offset 0)).pulled = 0 := Channel.demand_of_not_read rfl c
  rw [session_cons]
  unfold Channel.demands Channel.demands
  dsimp only
  rw [hwindows, hpulled, hseek, List.nil_append, Int.zero_add]

/-- After a move a read leaves the channel open, and pulls what it is due at least. -/
theorem demand_read_ge {memory : Nat} {c : Channel Unit} (hmemory : c.object.size ≤ memory) (hopen : c.closed = false)
    {offset : Int} (length : Int) (h0 : 0 ≤ offset) (hle : offset ≤ c.object.size) :
    Channel.SameAs ((c.movedTo offset).progress memory (.read (some length))).1 c ∧
      dueTo c.object.size (offset, length) ≤ ((c.movedTo offset).demand memory (.read (some length))).pulled := by
  have hmoved := Channel.movedTo_sameAs offset c
  have hposition := Channel.movedTo_position offset c
  have hopen' : (c.movedTo offset).closed = false := hmoved.closed.trans hopen
  have hdue := due_le (c.object.size - offset.toNat) (some length)
  have hpulled := @Channel.demand_read_ge memory (some length) _ hopen' (by rw [hposition]; exact h0)
    (by rw [hposition, hmoved.object]; exact hle) (by rw [hposition, hmoved.object]; omega)
  rw [hposition, hmoved.object] at hpulled
  exact ⟨hmoved.trans (Channel.progress_read_sameAs memory (some length) hopen'), hpulled⟩

/-- An open channel pulls what the reads of a workload are due at least. -/
theorem demands_session_ge {memory : Nat} {c : Channel Unit} (hmemory : c.object.size ≤ memory)
    (hopen : c.closed = false) {workload : Workload}
    (hinside : ∀ read ∈ workload, 0 ≤ read.1 ∧ read.1 ≤ c.object.size) :
    (workload.map (dueTo c.object.size)).sum ≤ (c.demands memory (session workload)).pulled := by
  induction workload generalizing c with
  | nil =>
    have hclose : (c.demand memory .close).pulled = 0 := Channel.demand_of_not_read rfl c
    show (0 : Int) ≤ (c.demand memory .close).pulled + 0
    omega
  | cons read reads ih =>
    obtain ⟨offset, length⟩ := read
    rw [List.forall_mem_cons] at hinside
    obtain ⟨⟨h0, hle⟩, hinside⟩ := hinside
    obtain ⟨hsame, hpulled⟩ := @demand_read_ge memory c hmemory hopen offset length h0 hle
    have hrest :=
      ih (by rw [hsame.object]; exact hmemory) (hsame.closed.trans hopen) (by rw [hsame.object]; exact hinside)
    rw [hsame.object] at hrest
    rw [@demands_session_cons memory c hopen offset h0 hle, List.map_cons, List.sum_cons]
    dsimp only
    omega

/-- An iteration asks for one window at most for each read. -/
theorem iterationDemand_windows_le (memory : Nat) (o : ObjectHandle) (options : ReadOptions) (workload : Workload) :
    (iterationDemand memory o options workload).windows.length ≤ workload.length := by
  have hwindows := Channel.demands_windows_le memory (session workload) (opened o options)
  rwa [session_reads] at hwindows

/-- An iteration pulls what its reads are due at least. -/
theorem iterationDemand_pulled_ge (hsize : data.size = o.size) {memory : Nat} (hmemory : o.size ≤ memory)
    (options : ReadOptions) {workload : Workload} (hinside : ∀ read ∈ workload, 0 ≤ read.1 ∧ read.1 ≤ o.size) :
    (workload.map fun read => (bytesDue data read).size).sum ≤ (iterationDemand memory o options workload).pulled := by
  obtain ⟨hnew, hobject⟩ := Channel.openRead_isNew (openRead_eq (H := Unit) o options)
  have hsizes : (workload.map fun read => (bytesDue data read).size) = workload.map (dueTo o.size) := by
    refine List.map_congr_left fun read hmem => ?_
    rw [← hsize, size_bytesDue (by rw [hsize]; exact (hinside read hmem).2)]
  have hpulled := @demands_session_ge memory _ (by rw [hobject]; exact hmemory) hnew.closed workload
    (by rw [hobject]; exact hinside)
  rw [hobject] at hpulled
  rw [hsizes]
  exact hpulled

/-- If its pauses are not refused, an iteration comes to its end and measures what it demands. -/
theorem iteration_measures (hserves : store.Serves o data I) (hsize : data.size = o.size) {memory n : Nat}
    (hmemory : o.size ≤ memory) (hn : 2 * o.size + 1 < n) (options : ReadOptions) {workload : Workload}
    (hinside : ∀ read ∈ workload, 0 ≤ read.1 ∧ read.1 ≤ o.size) {s : BenchState (Asked σ)}
    (hs : I s.behind.behind.behind) :
    ∃ s', iteration store.logged.transport none memory n o options workload s = (.done (), s') ∧
      Measures o I (iterationDemand memory o options workload) s s' := by
  obtain ⟨hnew, hobject⟩ := Channel.openRead_isNew (openRead_eq (H := TracedRange (StoreRange C)) o options)
  have hworks : (benchTransport store.logged.transport none).WorksOver o data { s with trace := s.trace.clear } :=
    ⟨_, _, store.logged, _, TracedRange.behind, _, hserves.logged, benchTransport_covers _, hs⟩
  have hreplays := replaysOn_of_starts hinside hworks hsize rfl hnew hobject hmemory hn
  have hmeasures := run_measures hserves hsize memory hn (session workload) hnew hobject
    (s := { s with trace := s.trace.clear }) hs rfl
  rw [opened_outline] at hmeasures
  refine ⟨_, ?_, hmeasures.serving, hmeasures.requests, hmeasures.pauses, hmeasures.windows, hmeasures.pulled⟩
  unfold iteration session
  rw [openRead_eq, Channel.run_append]
  dsimp only
  rw [hreplays.completes]
  rfl

/-! ## Repetition -/

/-- `Repeats o I demand count s s'`: from `s` to `s'` the demand was measured `count` times in a row. -/
inductive Repeats (o : ObjectHandle) (I : σ → Prop) (demand : Demand) :
    Nat → BenchState (Asked σ) → BenchState (Asked σ) → Prop
  | none {s} : Repeats o I demand 0 s s
  | again {count s s₁ s'} (hfirst : Measures o I demand s s₁) (hrest : Repeats o I demand count s₁ s') :
    Repeats o I demand (count + 1) s s'

namespace Repeats

variable {demand : Demand} {count : Nat} {s s' : BenchState (Asked σ)}

theorem serving (h : Repeats o I demand count s s') (hs : I s.behind.behind.behind) : I s'.behind.behind.behind := by
  induction h with
  | none => exact hs
  | again hfirst _ ih => exact ih hfirst.serving

/-- The store was asked for the same each time. -/
theorem requests (h : Repeats o I demand count s s') : s'.behind.behind.requests =
    s.behind.behind.requests ++ (List.replicate count (Store.gets o demand.windows)).flatten := by
  induction h with
  | none => exact (List.append_nil _).symm
  | again hfirst _ ih => rw [ih, hfirst.requests, List.replicate_succ, List.flatten_cons, List.append_assoc]

/-- What was measured last stands in the trace. -/
theorem last (h : Repeats o I demand (count + 1) s s') : ∃ s₁, Measures o I demand s₁ s' := by
  generalize hcount : count + 1 = times at h
  induction h generalizing count with
  | none => cases hcount
  | @again _ s _ _ hfirst hrest ih =>
    cases hrest with
    | none => exact ⟨s, hfirst⟩
    | again hsecond hlast => exact ih rfl

end Repeats

/-! ## Watches -/

namespace Stopwatch

variable {m : Type → Type}

/-- To evaluate something is to evaluate nothing, and gives its value. -/
def Faithful [Monad m] (watch : Stopwatch m) : Prop :=
  ∀ {α : Type} (f : Unit → α), watch.evaluate f = (fun _ => f ()) <$> watch.evaluate fun _ => ()

/-- Starts to time something that makes so many pauses of a length, and answers with the reading of the clock at its
start. -/
def attempt [Monad m] (watch : Stopwatch m) (latency : Float) (pauses : Nat) : m Float := do
  let start ← watch.now
  watch.evaluate fun _ => ()
  watch.sleep latency pauses
  pure start

/-- Times something that makes so many pauses of a length, a number of times in a row. -/
def timings [Monad m] (watch : Stopwatch m) (latency : Float) (pauses : Nat) :
    (count : Nat) → m (List.Vector Float count)
  | 0 => pure .nil
  | count + 1 => do
    let start ← watch.attempt latency pauses
    let stop ← watch.now
    let rest ← watch.timings latency pauses count
    pure ((stop - start) ::ᵥ rest)

end Stopwatch

/-- The watch of the benchmark program is faithful. -/
theorem systemWatch_faithful : systemWatch.Faithful := fun _ => rfl

/-- Iterations whose pauses are not refused measure the same each time, and are timed one after the other. -/
theorem iterations_repeat (hserves : store.Serves o data I) (hsize : data.size = o.size) {memory n : Nat}
    (hmemory : o.size ≤ memory) (hn : 2 * o.size + 1 < n) (options : ReadOptions) {workload : Workload}
    (hinside : ∀ read ∈ workload, 0 ≤ read.1 ∧ read.1 ≤ o.size) (count : Nat) {s : BenchState (Asked σ)}
    (hs : I s.behind.behind.behind) :
    let demand := iterationDemand memory o options workload
    ∃ last, Repeats o I demand count s last ∧
      ∀ {m : Type → Type} [Monad m] [LawfulMonad m] {watch : Stopwatch m} {latency : Float}, watch.Faithful →
        watch.refusal latency = none →
          iterations watch latency store.logged.transport memory n o options workload count s =
            (fun times => (.done times.toList, last)) <$> watch.timings latency demand.windows.length count := by
  induction count generalizing s with
  | zero =>
    refine ⟨s, .none, fun {m} _ _ watch latency _ _ => ?_⟩
    unfold iterations Stopwatch.timings
    rw [map_pure]
    rfl
  | succ count ih =>
    obtain ⟨s₁, hiteration, hmeasures⟩ := iteration_measures hserves hsize hmemory hn options hinside hs
    obtain ⟨last, hrepeats, hiterations⟩ := ih hmeasures.serving
    refine ⟨last, .again hmeasures hrepeats, fun {m} _ _ watch latency hwatch hlatency => ?_⟩
    have hpauses : s₁.behind.pauses - s.behind.pauses =
        (iterationDemand memory o options workload).windows.length := by
      have hsum := hmeasures.pauses
      omega
    unfold iterations Stopwatch.timings Stopwatch.attempt
    rw [hlatency, hwatch fun _ => iteration store.logged.transport none memory n o options workload s, hiteration]
    simp only [bind_map_left, hpauses, hiterations hwatch hlatency, map_bind, bind_assoc, pure_bind, map_pure,
      List.Vector.toList_cons, Outcome.map]

/-! ## Benchmarks -/

/-- What a benchmark reports of iterations that each came to what was demanded. -/
def resultOf (demand : Demand) (name workloadName : String) (times : List Float) : BenchResult where
  name := name
  workload := workloadName
  times := times
  requests := demand.windows.length
  bytesRequested := (demand.windows.map fun window => window.2 - window.1).sum
  bytesRead := demand.pulled

/-- **The statistics of a benchmark describe one iteration.** However often it is repeated over a store that serves the
object, with memory for the object and pauses that are not refused, and whatever the store did before, what is reported,
but for the times, is what one iteration demands, and the store is asked for the same each time. One window at most is
asked for by each read, and what is pulled is what the reads deliver at least. -/
theorem run_repeats (hserves : store.Serves o data I) (hsize : data.size = o.size) {memory n : Nat}
    (hmemory : o.size ≤ memory) (hn : 2 * o.size + 1 < n) (options : ReadOptions) {workload : Workload}
    (hinside : ∀ read ∈ workload, 0 ≤ read.1 ∧ read.1 ≤ o.size) {s : Asked σ} (hs : I s.behind) :
    let demand := iterationDemand memory o options workload
    ReplaysOn o.size workload ∧ demand.windows.length ≤ workload.length ∧
      (workload.map fun read => (bytesDue data read).size).sum ≤ demand.pulled ∧
      ∀ count, 0 < count → ∃ last : Asked σ, I last.behind ∧
        last.requests = s.requests ++ (List.replicate count (Store.gets o demand.windows)).flatten ∧
        ∀ {m : Type → Type} [Monad m] [LawfulMonad m] {watch : Stopwatch m} {latency : Float}, watch.Faithful →
          watch.refusal latency = none → ∀ name workloadName,
            run watch latency store.logged.transport memory n name workloadName o options workload count s =
              (fun times => (.done (resultOf demand name workloadName times.toList), last)) <$>
                watch.timings latency demand.windows.length count := by
  intro demand
  refine ⟨replaysOn_of_starts hinside, iterationDemand_windows_le memory o options workload,
    iterationDemand_pulled_ge hsize hmemory options hinside, fun count hcount => ?_⟩
  cases count with
  | zero => exact absurd hcount (Nat.lt_irrefl 0)
  | succ count =>
    obtain ⟨last, hrepeats, hiterations⟩ :=
      iterations_repeat hserves hsize hmemory hn options hinside (count + 1) (s := ⟨⟨s, 0⟩, {}, (), 0⟩) hs
    obtain ⟨s₁, hmeasures⟩ := hrepeats.last
    refine ⟨last.behind.behind, hrepeats.serving hs, hrepeats.requests, ?_⟩
    intro m _ _ watch latency hwatch hlatency name workloadName
    unfold run
    rw [hiterations hwatch hlatency]
    simp only [bind_map_left, Outcome.map, hmeasures.totalRequests, hmeasures.totalBytes, hmeasures.pulled]
    rw [map_eq_pure_bind]
    rfl

/-- So it is for an object of five bytes in memory that is read twice by three reads, with pauses of a fiftieth of a
second, where the clock ticks with every reading and every pause. The second read skips, the third one goes back. -/
theorem run_repeats_memory :
    let object : ObjectHandle := { path := "object", size := 5 }
    let watch : Stopwatch (StateM Nat) :=
      { now := modifyGet fun k => (k.toFloat, k + 1)
        evaluate := fun f => pure (f ())
        refusal := sleepRefusal?
        sleep := fun _ pauses => modify (· + pauses) }
    let start : Asked Memory.Objects := .start [("object", ⟨#[1, 2, 3, 4, 5]⟩)]
    ∃ times clock last,
      (run watch 0.02 (Memory.store 1).logged.transport 5 12 "auto" "mixed" object .standard [(0, 2), (4, 9), (1, -1)] 2
        start).run 0 = ((.done ⟨"auto", "mixed", times, 2, 9, 9⟩, last), clock) ∧
      times.length = 2 ∧ last.requests =
        [.get "object" 0 5 none, .get "object" 1 5 none, .get "object" 0 5 none, .get "object" 1 5 none] := by
  intro object watch start
  have hserves := Memory.store_serves (o := object) (d := ⟨#[1, 2, 3, 4, 5]⟩) 1 rfl
  have hlookup : start.behind.lookup "object" = some ⟨#[1, 2, 3, 4, 5]⟩ := by simp [start, Asked.start]
  have hn : 2 * object.size + 1 < 12 := by decide
  have hinside : ∀ read ∈ ([(0, 2), (4, 9), (1, -1)] : Workload), 0 ≤ read.1 ∧ read.1 ≤ object.size := by decide
  have hdemand : iterationDemand 5 object .standard [(0, 2), (4, 9), (1, -1)] = ⟨[(0, 5), (1, 5)], 9⟩ := by
    decide +kernel
  have hwatch : watch.Faithful := fun _ => rfl
  have hlatency : watch.refusal 0.02 = none := by decide +kernel
  obtain ⟨-, -, -, hrepeats⟩ := run_repeats hserves rfl (Nat.le_refl 5) hn .standard hinside hlookup
  obtain ⟨last, -, hrequests, hrun⟩ := hrepeats 2 (by decide)
  rw [hdemand] at hrequests
  rw [hrun hwatch hlatency, hdemand]
  exact ⟨_, _, last, rfl, List.Vector.toList_length _, hrequests⟩

end Bench

end RangeRead
