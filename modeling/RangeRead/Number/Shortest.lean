import RangeRead.Number.Double

/-!
# The shortest text of a double

A double is written with the fewest digits that read back as the same double, and of those with the digits
nearest to its value, a tie going to the even digit. Numbers from `10 ^ -4` up to, but not including, `10 ^ 16`
are written in place; the others have an exponent with a sign and at least two digits.
-/

namespace RangeRead.Number

/-- A decimal `0.d₁d₂… × 10 ^ point`. -/
structure Decimal where
  digits : List Char
  point : Int

/-- The least `point` such that a positive number no smaller than `10 ^ -350` is below `10 ^ point`. -/
def decimalPoint (r : Rat) : Int :=
  ((Nat.toDigits 10 (timesPow10 r 350).floor.toNat).length : Int) - 350

/-- The multiple of `unit`, if any, that reads back as `x`; of two the one nearer to the value `r` of `x`, and the
even one if both are equally near. -/
def readBackMultiple? (x : Float) (r unit : Rat) : Option Nat :=
  let quotient := r / unit
  let below := quotient.floor.toNat
  let reads (n : Nat) : Bool := (nearest? ((n : Rat) * unit)).any fun y => y.toBits == x.toBits
  match reads below, reads (below + 1) with
  | true, true => some (roundDiv quotient.num.natAbs quotient.den)
  | true, false => some below
  | false, true => some (below + 1)
  | false, false => none

/-- The decimal `n × 10 ^ exponent`, without zeros at its end. -/
def Decimal.ofMultiple (n : Nat) (exponent : Int) : Decimal :=
  let digits := Nat.toDigits 10 n
  ⟨(digits.reverse.dropWhile (· == '0')).reverse, exponent + digits.length⟩

/-- The shortest decimal that reads back, tried with `count`, `count + 1`, … digits. -/
def shortestFrom (x : Float) (r : Rat) (point : Int) : Nat → Nat → Decimal
  | 0, _ => ⟨[], point⟩
  | tries + 1, count =>
    let exponent := point - count
    match readBackMultiple? x r (timesPow10 1 exponent) with
    | some n => Decimal.ofMultiple n exponent
    | none => shortestFrom x r point tries (count + 1)

/-- The shortest decimal that reads back as the positive double `x`, whose value is `r`. Seventeen digits are
always enough. -/
def shortest (x : Float) (r : Rat) : Decimal := shortestFrom x r (decimalPoint r) 17 1

def zeros (n : Nat) : List Char := List.replicate n '0'

/-- The decimal with all its places written out. -/
def Decimal.inPlace (d : Decimal) : List Char :=
  if d.point ≤ 0 then '0' :: '.' :: zeros (-d.point).toNat ++ d.digits
  else
    let places := d.point.toNat
    let whole := d.digits.take places ++ zeros (places - d.digits.length)
    let rest := d.digits.drop places
    whole ++ '.' :: (if rest.isEmpty then ['0'] else rest)

/-- The decimal with one place before the point and an exponent. -/
def Decimal.scientific (d : Decimal) : List Char :=
  let exponent := d.point - 1
  let digits := Nat.toDigits 10 exponent.natAbs
  let rest := d.digits.drop 1
  d.digits.take 1 ++ (if rest.isEmpty then [] else '.' :: rest) ++
    'e' :: (if exponent < 0 then '-' else '+') :: zeros (2 - digits.length) ++ digits

def Decimal.render (d : Decimal) : List Char :=
  if -4 < d.point ∧ d.point ≤ 16 then d.inPlace else d.scientific

/-- The shortest text of a double. -/
def text (x : Float) : String :=
  match magnitude? x with
  | none => if x.isNaN then "nan" else if isNegative x then "-inf" else "inf"
  | some r =>
    let size := if r = 0 then ['0', '.', '0'] else (shortest x.abs r).render
    String.ofList (if isNegative x then '-' :: size else size)

end RangeRead.Number
