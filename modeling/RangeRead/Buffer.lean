import RangeRead.Error

/-!
# Buffers

A new buffer takes memory, of which there is a given amount; `Buffer.check` refuses exactly the sizes beyond it
(`check_eq_ok_iff`).
-/

namespace RangeRead.Buffer

/-- Refuses a new buffer that there is no memory for. -/
def check (memory size : Nat) : Except ReadError Unit :=
  if memory < size then .error (.bufferTooLarge size) else .ok ()

/-- There is memory for the sizes up to its amount. -/
theorem check_eq_ok_iff {memory size : Nat} : check memory size = .ok () ↔ size ≤ memory := by
  unfold check
  split
  · simp only [reduceCtorEq, false_iff]
    omega
  · simp only [true_iff]
    omega

/-- A buffer whose bytes are all the same. -/
def filled (size : Nat) (byte : UInt8) : ByteArray := ⟨Array.replicate size byte⟩

/-- A new buffer whose bytes are all the same. -/
def new (memory size : Nat) (byte : UInt8) : Except ReadError ByteArray :=
  (check memory size).map fun _ => filled size byte

end RangeRead.Buffer
