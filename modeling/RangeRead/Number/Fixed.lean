import RangeRead.Number.Shortest

/-!
# Fixed places and columns

A double written with a fixed number of places, rounded from its exact value with a half to the even digit; and
texts filled up to the width of a column.
-/

namespace RangeRead.Number

/-- A number of units of `10 ^ -places`, written with that many places. -/
def placed (places units : Nat) : List Char :=
  let digits := Nat.toDigits 10 units
  let padded := zeros (places + 1 - digits.length) ++ digits
  let whole := padded.length - places
  padded.take whole ++ (if places = 0 then [] else '.' :: padded.drop whole)

/-- The double with a fixed number of places. -/
def fixed (places : Nat) (x : Float) : String :=
  match magnitude? x with
  | none => text x
  | some r =>
    let size := placed places (roundDiv (r.num.natAbs * pow10 places) r.den)
    String.ofList (if isNegative x then '-' :: size else size)

/-- The text with spaces after it up to a width. -/
def alignLeft (width : Nat) (s : String) : String := s ++ String.ofList (List.replicate (width - s.length) ' ')

/-- The text with spaces before it up to a width. -/
def alignRight (width : Nat) (s : String) : String := String.ofList (List.replicate (width - s.length) ' ') ++ s

end RangeRead.Number
