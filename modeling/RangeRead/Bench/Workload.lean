import RangeRead.Trace

/-!
# Workloads

A workload is a list of reads, each with an offset and a length. `sequentialScan` reads an object front to back,
`columnar` reads a footer and then column chunks scattered over the object, and `randomReads` reads at offsets
drawn at random.
-/

namespace RangeRead.Bench

abbrev Workload := List (Int × Int)

/-- Why a benchmark has no result. -/
inductive BenchError
  | reading (error : ReadError)
  | zeroStep
  | noTimes
  /-- The deviation of times that are not all finite. -/
  | endlessTimes
  | number (error : NumberError)

/-- The text of a benchmark's error. -/
def BenchError.message : BenchError → String
  | reading error => error.message
  | zeroStep => "range() arg 3 must not be zero"
  | noTimes => "mean requires at least one data point"
  | endlessTimes => "'float' object has no attribute 'numerator'"
  | number error => error.message

/-- The class of a benchmark's error. -/
def BenchError.kind : BenchError → Option ErrorKind
  | reading error => error.kind
  | zeroStep => some .invalidValue
  | noTimes => some .statistics
  | endlessTimes => some .missingAttribute
  | number error => some error.kind

/-- A source of numbers drawn from the first bound up to, but not including, the second. -/
structure RandomSource (γ : Type) where
  draw : Int → Int → γ → Except ReadError Int × γ

/-! ## Front to back -/

/-- The number of steps from zero that stay before the end, upwards or downwards. -/
def stepCount (stop step : Int) : Nat :=
  if 0 < step then ((stop + step - 1) / step).toNat else ((-stop - step - 1) / (-step)).toNat

/-- Reads of one size at every multiple of it before the end of the object. -/
def sequentialScan (size readSize : Int) : Except BenchError Workload :=
  if readSize = 0 then .error .zeroStep
  else .ok ((List.range (stepCount size readSize)).map fun (i : Nat) => (i * readSize, readSize))

/-! ## Drawn at random -/

/-- The size of the footer that a columnar workload reads. -/
def footerSize : Int := 64 * 1024

/-- Four reads in a row. -/
def chunkReads (start readSize : Int) : Workload :=
  (List.range 4).map fun (i : Nat) => (start + i * readSize, readSize)

/-- Draws `count` offsets below a bound. -/
def drawOffsets {γ : Type} (source : RandomSource γ) (bound : Int) :
    Nat → γ → Except BenchError (List Int) × γ
  | 0, g => (.ok [], g)
  | count + 1, g =>
    match source.draw 0 bound g with
    | (.error e, g) => (.error (.reading e), g)
    | (.ok offset, g) =>
      match drawOffsets source bound count g with
      | (.ok offsets, g) => (.ok (offset :: offsets), g)
      | failure => failure

/-- Two reads of the footer, its last eight bytes first, and 32 column chunks. -/
def columnar {γ : Type} (source : RandomSource γ) (size readSize : Int) (g : γ) :
    Except BenchError Workload × γ :=
  let (offsets, g) := drawOffsets source (size - readSize * 4) 32 g
  (offsets.map fun offsets =>
    (size - 8, 8) :: (size - footerSize, footerSize - 8) :: offsets.flatMap fun start => chunkReads start readSize,
   g)

/-- 128 reads of one size. -/
def randomReads {γ : Type} (source : RandomSource γ) (size readSize : Int) (g : γ) :
    Except BenchError Workload × γ :=
  let (offsets, g) := drawOffsets source (size - readSize) 128 g
  (offsets.map fun offsets => offsets.map fun start => (start, readSize), g)

end RangeRead.Bench
