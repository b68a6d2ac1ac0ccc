import RangeRead.Error

/-!
# Counting what is delivered

A `Recorder` is told the size of every read that delivered something. `ReadMetrics` counts those reads and their
bytes.
-/

namespace RangeRead

/-- A sink for the sizes of reads, which may refuse one with an error. -/
structure Recorder (ρ : Type) where
  record : Int → ρ → Except ReadError Unit × ρ

/-- How many bytes were delivered, and by how many reads. -/
structure ReadMetrics where
  bytesRead : Int := 0
  readCalls : Nat := 0
  deriving DecidableEq, Repr, Inhabited

namespace ReadMetrics

/-- One more read, of `n` bytes. -/
def add (m : ReadMetrics) (n : Int) : ReadMetrics := ⟨m.bytesRead + n, m.readCalls + 1⟩

/-- The counts from the start again. -/
def reset (_ : ReadMetrics) : ReadMetrics := {}

/-- The recorder that counts and never refuses. -/
def recorder : Recorder ReadMetrics := ⟨fun n m => (.ok (), m.add n)⟩

end ReadMetrics

end RangeRead
