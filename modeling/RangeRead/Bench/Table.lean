import RangeRead.Bench.Run
import RangeRead.Bench.Statistics
import RangeRead.Number.Fixed

/-!
# The table of results

One line for each result under a header and a rule. Times are in seconds with four places, sizes in megabytes with
one.
-/

namespace RangeRead.Bench

open Number

def header : String :=
  alignLeft 12 "workload" ++ " " ++ alignLeft 12 "channel" ++ " " ++ alignRight 16 "time (s)" ++ " " ++
    alignRight 9 "requests" ++ " " ++ alignRight 13 "MB requested" ++ " " ++ alignRight 9 "MB read"

/-- The line under the header. -/
def rule : String := String.ofList (List.replicate header.length '-')

/-- A number of bytes in millions: the nearest double, divided by a million. -/
def megabytes (n : Int) : Except BenchError Float :=
  match nearest? n with
  | some x => .ok (x / 1000000)
  | none => .error (.number .integerTooLarge)

/-- The line of a result. -/
def row (r : BenchResult) : Except BenchError String := do
  let mean ← mean r.times
  let deviation ← deviation r.times
  let requested ← megabytes r.bytesRequested
  let read ← megabytes r.bytesRead
  return alignLeft 12 r.workload ++ " " ++ alignLeft 12 r.name ++ " " ++ alignRight 9 (fixed 4 mean) ++ " ± " ++
    alignLeft 5 (fixed 4 deviation) ++ alignRight 9 (toString r.requests) ++ " " ++
    alignRight 13 (fixed 1 requested) ++ " " ++ alignRight 9 (fixed 1 read)

/-- The whole table, each line ended. -/
def table (results : List BenchResult) : Except BenchError String := do
  let rows ← results.mapM row
  return String.join ((header :: rule :: rows).map (· ++ "\n"))

end RangeRead.Bench
