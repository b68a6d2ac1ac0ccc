import RangeRead.Bench.Workload

/-!
# Mean and deviation

The mean and the sample standard deviation of measured times, taken exactly and rounded once.
-/

namespace RangeRead.Bench

/-- The exact values of the times, or the times that are not finite if there are some. -/
def exactTimes (times : List Float) : Except Float (List Rat) :=
  match times.filter fun x => (Number.value? x).isNone with
  | [] => .ok (times.filterMap Number.value?)
  | odd => .error (odd.foldl (· + ·) 0)

def total (values : List Rat) : Rat := values.foldl (· + ·) 0

/-- The nearest double to an exact number. -/
def rounded (r : Rat) : Except BenchError Float :=
  match Number.nearest? r with
  | some x => .ok x
  | none => .error (.number .quotientTooLarge)

/-- The mean of the times, of which there must be one. -/
def mean (times : List Float) : Except BenchError Float :=
  if times.isEmpty then .error .noTimes
  else
    match exactTimes times with
    | .error x => .ok x
    | .ok values => rounded (total values / values.length)

/-- The sum of the squared distances from the mean. -/
def squaredDistances (values : List Rat) : Rat :=
  total (values.map fun x => x * x) - total values * total values / values.length

/-- The sample standard deviation, which is zero where there are fewer than two times. Of two or more times all must
be finite. -/
def deviation (times : List Float) : Except BenchError Float :=
  if times.length ≤ 1 then .ok 0
  else
    match exactTimes times with
    | .error _ => .error .endlessTimes
    | .ok values =>
      match Number.sqrtNearest? (squaredDistances values / (values.length - 1 : Nat)) with
      | some x => .ok x
      | none => .error (.number .quotientTooLarge)

end RangeRead.Bench
