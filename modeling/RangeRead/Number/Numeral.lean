import RangeRead.Number.Double
import RangeRead.Text.Numeral

/-!
# Reading doubles

The double that a decimal numeral stands for: digits of any script with single underscores between them, perhaps a
point and an exponent, or a word for infinity or for no number. The exact number is rounded once; a number beyond
all doubles reads as infinity.
-/

namespace RangeRead.Number

def infinity : Float := Float.ofBits 0x7ff0000000000000

def notANumber : Float := Float.ofBits 0x7ff8000000000000

/-- The characters before the first one that satisfies `p`, and, if there is one, those after it. -/
def splitAtFirst (p : Char → Bool) (cs : List Char) : List Char × Option (List Char) :=
  let front := cs.takeWhile fun c => !p c
  match cs.drop front.length with
  | [] => (front, none)
  | _ :: rest => (front, some rest)

/-- The digits on one side of a point, which may be missing. -/
def sideDigits? (cs : List Char) : Option (List Nat) := if cs.isEmpty then some [] else Text.digitValues? cs

/-- The digits of a numeral without a sign and an exponent, and how many of them are behind the point. -/
def mantissa? (cs : List Char) : Option (List Nat × Nat) :=
  match splitAtFirst (· == '.') cs with
  | (whole, none) => (Text.digitValues? whole).map fun ds => (ds, 0)
  | (whole, some rest) =>
    match sideDigits? whole, sideDigits? rest with
    | some ds, some ds' => if ds.isEmpty && ds'.isEmpty then none else some (ds ++ ds', ds'.length)
    | _, _ => none

/-- The exponent of a numeral. -/
def exponent? : Option (List Char) → Option Int
  | none => some 0
  | some ('+' :: cs) => (Text.digitValues? cs).map fun ds => Text.ofDigits ds
  | some ('-' :: cs) => (Text.digitValues? cs).map fun ds => - (Text.ofDigits ds : Int)
  | some cs => (Text.digitValues? cs).map fun ds => Text.ofDigits ds

/-- The double nearest to `n * 10 ^ exponent`, where `n` has the given number of digits. Exponents that leave the
range of doubles are not worked out. -/
def scaled (n digits : Nat) (exponent : Int) : Float :=
  if n = 0 ∨ exponent + digits < -400 then 0
  else if 400 < exponent + digits then infinity
  else (nearest? (timesPow10 n exponent)).getD infinity

/-- The double that a numeral without a sign stands for. -/
def unsigned? (cs : List Char) : Option Float :=
  let word := (String.ofList cs).toLower
  if word == "inf" || word == "infinity" then some infinity
  else if word == "nan" then some notANumber
  else
    let (front, rest) := splitAtFirst (fun c => c == 'e' || c == 'E') cs
    match mantissa? front, exponent? rest with
    | some (digits, places), some exponent =>
      let n := Text.ofDigits digits
      some (scaled n (Nat.toDigits 10 n).length (exponent - places))
    | _, _ => none

/-- The bits of the double that a text stands for. They keep the sign also where there is no number. -/
def bitsOfText? (s : String) : Option UInt64 :=
  match Text.trimChars s.toList with
  | '+' :: cs => (unsigned? cs).map Float.toBits
  | '-' :: cs => (unsigned? cs).map fun x => x.toBits ||| 0x8000000000000000
  | cs => (unsigned? cs).map Float.toBits

/-- The double that a text stands for. -/
def ofText? (s : String) : Option Float := (bitsOfText? s).map Float.ofBits

end RangeRead.Number
