import RangeRead.Bench.Command
import RangeRead.Bench.Generator
import RangeRead.Store.Memory
import RangeRead.Store.Range

/-!
# The benchmark program

Runs the benchmark over an object in memory and prints the table of its results.
-/

namespace RangeRead.Bench

/-- Takes times from the system's clock and sleeps through the pauses. -/
def systemWatch : Stopwatch IO where
  now := return (← IO.monoNanosNow).toFloat / 1000000000
  evaluate := IO.lazyPure
  refusal := sleepRefusal?
  sleep seconds pauses := IO.sleep (seconds * 1000 * pauses.toFloat).toUInt32

/-- The bytes of a chunk, less one. -/
def memoryChunk : Nat := 65535

/-- Every read of the memory store delivers something, so that no read is repeated more often than it has bytes. -/
def memoryPatience (settings : BenchSettings) : Nat := 2 * settings.size.toNat + 2

/-- Where the object is in memory, there is memory for every read of it. -/
def runProgram (settings : BenchSettings) : IO (Outcome BenchError String) := do
  let (data, g) := Generator.appendBytes settings.size.toNat .empty (Generator.ofSeed settings.seed)
  report systemWatch (Memory.store memoryChunk).transport Generator.source settings.size.toNat
    (memoryPatience settings) settings g [(benchPath, data)]

end RangeRead.Bench

open RangeRead.Bench in
def main (arguments : List String) : IO UInt32 := do
  match BenchSettings.ofArguments {} arguments with
  | .error e =>
    IO.eprintln e.message
    return 2
  | .ok settings =>
    match ← runProgram settings with
    | .done text =>
      IO.print text
      return 0
    | .failed e =>
      IO.eprintln e.message
      return 1
    | .stalled =>
      IO.eprintln "The transport stalled."
      return 1
