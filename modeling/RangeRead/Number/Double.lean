/-!
# Doubles and exact numbers

The exact value of a finite double (`value?`) and the double nearest to an exact number (`nearest?`), where a
half goes to the even neighbour. Quotients and square roots are taken exactly and rounded once.
-/

namespace RangeRead.Number

/-! ## Powers -/

def pow2 (n : Nat) : Nat := Nat.pow 2 n

def pow10 (n : Nat) : Nat := Nat.pow 10 n

/-- A number times a power of two. -/
def timesPow2 (r : Rat) (n : Int) : Rat := if 0 ≤ n then r * pow2 n.toNat else r / pow2 (-n).toNat

/-- A number times a power of ten. -/
def timesPow10 (r : Rat) (n : Int) : Rat := if 0 ≤ n then r * pow10 n.toNat else r / pow10 (-n).toNat

/-! ## Exact values -/

/-- Whether the sign bit is set, which tells the two zeros apart. -/
def isNegative (x : Float) : Bool := pow2 63 ≤ x.toBits.toNat

/-- The exact size of a finite double, without its sign. -/
def magnitude? (x : Float) : Option Rat :=
  let exponent : Nat := x.toBits.toNat / pow2 52 % pow2 11
  let fraction : Nat := x.toBits.toNat % pow2 52
  let significand : Nat := if exponent = 0 then fraction else pow2 52 + fraction
  if exponent = 2047 then none else some (timesPow2 significand ((max exponent 1 : Nat) - 1075))

/-- The exact value of a finite double. -/
def value? (x : Float) : Option Rat :=
  (magnitude? x).map fun r => if isNegative x then -r else r

/-! ## Rounding -/

/-- The quotient rounded to the nearest integer, a half to the even one. -/
def roundDiv (num den : Nat) : Nat :=
  let quotient := num / den
  let rest := num % den
  if 2 * rest < den then quotient
  else if den < 2 * rest then quotient + 1
  else quotient + quotient % 2

/-- The numerator and the denominator of `num / den` in units of `2 ^ scale`. -/
def inUnits (num den : Nat) (scale : Int) : Nat × Nat :=
  (num * pow2 (-scale).toNat, den * pow2 scale.toNat)

/-- The power of two that is the unit in the last place of a positive quotient: its significand has 53 bits, or
fewer where the unit is the smallest of all, `2 ^ -1074`. -/
def unitScale (num den : Nat) : Int :=
  let scale : Int := max ((num.log2 : Int) - den.log2 - 53) (-1074)
  let (num, den) := inUnits num den scale
  if den * pow2 53 ≤ num then scale + 1 else scale

/-- The bits of the double nearest to a quotient, or nothing if that is beyond the largest double. -/
def nearestBits? (num den : Nat) : Option Nat :=
  if num = 0 then some 0
  else
    let scale := unitScale num den
    let (num, den) := inUnits num den scale
    let bits := (scale + 1074).toNat * pow2 52 + roundDiv num den
    if bits < 2047 * pow2 52 then some bits else none

/-- The double nearest to an exact number, or nothing if that is beyond the largest double. -/
def nearest? (r : Rat) : Option Float :=
  (nearestBits? r.num.natAbs r.den).map fun bits =>
    Float.ofBits (UInt64.ofNat (if r.num < 0 then pow2 63 + bits else bits))

/-! ## Square roots -/

/-- Adds to `root`, from the given bit down, every bit that keeps its square within `n`. -/
def sqrtBits (n : Nat) : Nat → Nat → Nat
  | 0, root => root
  | bit + 1, root =>
    let next := root + pow2 bit
    sqrtBits n bit (if next * next ≤ n then next else root)

/-- The largest number whose square is within `n`. -/
def sqrtFloor (n : Nat) : Nat := sqrtBits n (n.log2 / 2 + 1) 0

/-- The double nearest to the square root of `r`, for `r` not negative. The root is cut after enough bits that
rounding needs to know of the rest only whether it is zero. -/
def sqrtNearest? (r : Rat) : Option Float :=
  let num := r.num.natAbs
  let places := 60 + (r.den.log2 - num.log2) / 2
  let scaled := num * pow2 (2 * places)
  let root := sqrtFloor (scaled / r.den)
  let sticky := if root * root * r.den = scaled then 0 else 1
  nearest? (mkRat (2 * root + sticky) (pow2 (places + 1)))

end RangeRead.Number
