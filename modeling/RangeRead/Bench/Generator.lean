import RangeRead.Bench.Workload

/-!
# Pseudo-random numbers

A linear congruential generator on 64-bit words, of which the upper bits are used.
-/

namespace RangeRead.Bench

/-- The state of the generator. It stands for a Mersenne twister and is none, so that the program draws other workloads
from a `--seed` than one with a twister does. -/
structure Generator where
  word : UInt64

namespace Generator

def ofSeed (seed : Int) : Generator := ⟨UInt64.ofInt seed⟩

def next (g : Generator) : Generator := ⟨g.word * 6364136223846793005 + 1442695040888963407⟩

/-- The upper half of the word. -/
def value (g : Generator) : Nat := (g.word >>> 32).toNat

/-- So many bytes, put behind those that are there, and the generator after them. -/
def appendBytes : Nat → ByteArray → Generator → ByteArray × Generator
  | 0, bytes, g => (bytes, g)
  | n + 1, bytes, g =>
    let g := g.next
    appendBytes n (bytes.push (g.word >>> 56).toUInt8) g

/-- Draws of the generator; nothing can be drawn from an empty range. -/
def source : RandomSource Generator where
  draw low high g :=
    if low < high then
      let g := g.next
      (.ok (low + (g.value : Int) % (high - low)), g)
    else (.error (.outside ⟨"ValueError", "empty range"⟩), g)

end Generator

end RangeRead.Bench
