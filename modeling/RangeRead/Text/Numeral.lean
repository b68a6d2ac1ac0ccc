import RangeRead.Text.Blank
import RangeRead.Text.Digit

/-!
# Integer numerals

A numeral is a run of decimal digits of any scripts, with one optional sign in front and single underscores
between digits, and blanks around it. Numerals of more than `maxDigits` digits are refused, and no number is written
with more (`isWritable`); instead `tooManyDigits` is said.
-/

namespace RangeRead.Text

/-- The longest numeral that is read or written, in digits. -/
def maxDigits : Nat := 4300

/-- The values of digits that may be separated by single underscores; at least one digit is required. -/
def digitValues? : List Char → Option (List Nat)
  | [] => none
  | [c] => (digitValue? c).map fun d => [d]
  | c :: '_' :: rest =>
    match digitValue? c, digitValues? rest with
    | some d, some ds => some (d :: ds)
    | _, _ => none
  | c :: c' :: rest =>
    match digitValue? c, digitValues? (c' :: rest) with
    | some d, some ds => some (d :: ds)
    | _, _ => none

/-- The number that decimal digits stand for, most significant first. -/
def ofDigits (ds : List Nat) : Nat := ds.foldl (fun n d => 10 * n + d) 0

/-- The number that an unsigned numeral stands for. -/
def natural? (cs : List Char) : Option Nat :=
  match digitValues? cs with
  | none => none
  | some ds => if ds.length ≤ maxDigits then some (ofDigits ds) else none

/-- The number that a numeral stands for. -/
def integer? (s : String) : Option Int :=
  match trimChars s.toList with
  | '+' :: cs => (natural? cs).map Int.ofNat
  | '-' :: cs => (natural? cs).map fun n => - (n : Int)
  | cs => (natural? cs).map Int.ofNat

/-- Whether a number has few enough digits to be written. -/
def isWritable (n : Int) : Bool := n.natAbs < Nat.pow 10 maxDigits

/-- What is said instead of a number that cannot be written. -/
def tooManyDigits : String :=
  s!"Exceeds the limit ({maxDigits} digits) for integer string conversion; " ++
    "use sys.set_int_max_str_digits() to increase the limit"

end RangeRead.Text
