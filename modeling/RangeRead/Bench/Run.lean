import RangeRead.Bench.Workload
import RangeRead.Channel.Open
import RangeRead.Trace.Transport

/-!
# Running a workload

`iteration` replays a workload once on a new channel over a traced transport, and closes the channel whatever
happens. `run` does so a number of times under a `Stopwatch` and keeps the totals of the last trace. Before every range
that is opened there is a pause of so many seconds (the latency), which may be refused (`sleepRefusal?`); the error is
then that of a range that could not be opened.
-/

namespace RangeRead.Bench

variable {σ H : Type}

/-! ## One iteration -/

/-- Seeks and reads as a workload says, up to the first error, with memory for the bytes of each read. -/
def replay (t : Transport σ H) (memory patience : Nat) :
    Workload → Channel H → σ → Outcome ReadError Unit × Channel H × σ
  | [], c, s => (.done (), c, s)
  | (offset, length) :: reads, c, s =>
    match c.seek t offset 0 s with
    | (.error e, c, s) => (.failed e, c, s)
    | (.ok _, c, s) =>
      match c.read { transport := t, memory := memory } patience (some length) ⟨s, ()⟩ with
      | (.done _, c, w) => replay t memory patience reads c w.transport
      | (.failed e, c, w) => (.failed e, c, w.transport)
      | (.stalled, c, w) => (.stalled, c, w.transport)

/-- The state of the transport that a workload runs over. -/
abbrev BenchState (σ : Type) := Traced (Paused σ) Unit

/-- The transport that a workload runs over: another one, with a pause before every range, and traced. -/
def benchTransport (t : Transport σ H) (refusal : Option Fault) : Transport (BenchState σ) (TracedRange H) :=
  (t.paused refusal).traced (fun _ => 0) none

/-- Replays a workload on a new channel; the trace starts empty. -/
def iteration (t : Transport σ H) (refusal : Option Fault) (memory patience : Nat) (object : ObjectHandle)
    (options : ReadOptions) (workload : Workload) (s : BenchState σ) : Outcome ReadError Unit × BenchState σ :=
  let t := benchTransport t refusal
  let s := { s with trace := s.trace.clear }
  match Channel.openRead (some object) (some options) with
  | .error e => (.failed e, s)
  | .ok c =>
    let (answer, c, s) := replay t memory patience workload c s
    (answer, (c.close t s).2)

/-! ## Measuring -/

/-- Why a sleep of so many seconds is refused, if it is: a sleep lasts for a number of nanoseconds that is neither below
zero nor too large for a signed word of 64 bits. -/
def sleepRefusal? (seconds : Float) : Option Fault :=
  let nanoseconds := seconds * 1000000000
  if seconds.isNaN then some ⟨"ValueError", "Invalid value NaN (not a number)"⟩
  else if nanoseconds < -9223372036854775808 ∨ 9223372036854775808 ≤ nanoseconds then
    some ⟨"OverflowError", "timestamp out of range for platform time_t"⟩
  else if seconds < 0 then some ⟨"ValueError", "sleep length must be non-negative"⟩
  else none

/-- The way to take times: the clock's reading in seconds, the evaluation of a value at that moment, whether it is
refused to sleep for so many seconds, and the sleeping for so many seconds a number of times. -/
structure Stopwatch (m : Type → Type) where
  now : m Float
  evaluate : {α : Type} → (Unit → α) → m α
  refusal : Float → Option Fault
  sleep : Float → Nat → m Unit

/-- What the iterations of one workload and one configuration came to. -/
structure BenchResult where
  name : String
  workload : String
  times : List Float
  requests : Int
  bytesRequested : Int
  bytesRead : Int

/-- Times `count` iterations, up to the first that fails. -/
def iterations {m : Type → Type} [Monad m] (watch : Stopwatch m) (latency : Float) (t : Transport σ H)
    (memory patience : Nat) (object : ObjectHandle) (options : ReadOptions) (workload : Workload) :
    Nat → BenchState σ → m (Outcome ReadError (List Float) × BenchState σ)
  | 0, s => pure (.done [], s)
  | count + 1, s => do
    let start ← watch.now
    let (answer, next) ← watch.evaluate fun _ =>
      iteration t (watch.refusal latency) memory patience object options workload s
    watch.sleep latency (next.behind.pauses - s.behind.pauses)
    match answer with
    | .failed e => pure (.failed e, next)
    | .stalled => pure (.stalled, next)
    | .done _ =>
      let stop ← watch.now
      let (rest, last) ← iterations watch latency t memory patience object options workload count next
      pure (rest.map ((stop - start) :: ·), last)

/-- Runs a workload on one configuration a number of times. -/
def run {m : Type → Type} [Monad m] (watch : Stopwatch m) (latency : Float) (t : Transport σ H)
    (memory patience : Nat) (name workloadName : String) (object : ObjectHandle) (options : ReadOptions)
    (workload : Workload) (count : Nat) (s : σ) : m (Outcome ReadError BenchResult × σ) := do
  let (times, last) ← iterations watch latency t memory patience object options workload count ⟨⟨s, 0⟩, {}, (), 0⟩
  let result (times : List Float) : BenchResult :=
    { name := name
      workload := workloadName
      times := times
      requests := last.trace.totalRequests
      bytesRequested := last.trace.totalBytes
      bytesRead := last.trace.totalBytesRead }
  pure (times.map result, last.behind.behind)

end RangeRead.Bench
