import RangeRead.Number.Shortest
import RangeRead.Text.Quoted

/-!
# Settings

A `Setting` is a raw value from outside, before it is checked: nothing, a truth value, a number, a text, a list or
a record. `Setting.display` is its text in messages, `Setting.truth` its reading as a yes or no, and `Setting.same`
compares numbers by value, whatever their kind.
-/

namespace RangeRead

inductive Setting
  | absent
  | flag (b : Bool)
  | whole (n : Int)
  | real (x : Float)
  | text (s : String)
  | list (items : List Setting)
  | record (fields : List (String × Setting))
  deriving Inhabited

namespace Setting

/-! ## Text -/

mutual

/-- The text of a setting in a message. -/
def display : Setting → String
  | absent => "None"
  | flag true => "True"
  | flag false => "False"
  | whole n => toString n
  | real x => Number.text x
  | text s => Text.quoted s
  | list items => "[" ++ String.intercalate ", " (displayItems items) ++ "]"
  | record fields => "\x7b" ++ String.intercalate ", " (displayFields fields) ++ "\x7d"

def displayItems : List Setting → List String
  | [] => []
  | item :: items => item.display :: displayItems items

def displayFields : List (String × Setting) → List String
  | [] => []
  | (key, value) :: fields => (Text.quoted key ++ ": " ++ value.display) :: displayFields fields

end

/-! ## Truth -/

/-- Nothing, zero and what is empty count as no; all else counts as yes. -/
def truth : Setting → Bool
  | absent => false
  | flag b => b
  | whole n => n != 0
  | real x => x != 0
  | text s => !s.isEmpty
  | list items => !items.isEmpty
  | record fields => !fields.isEmpty

/-! ## Equality -/

/-- The exact number that a setting stands for. -/
def number? : Setting → Option Rat
  | flag b => some (if b then 1 else 0)
  | whole n => some n
  | real x => Number.value? x
  | _ => none

mutual

/-- Whether two settings are equal; numbers and truth values are compared by their value. -/
def same : Setting → Setting → Bool
  | absent, absent => true
  | text s, text s' => s == s'
  | list items, list items' => sameItems items items'
  | record fields, record fields' => fields.length == fields'.length && sameFields fields fields'
  | real x, real x' => x == x' || x.toBits == x'.toBits
  | a, b =>
    match a.number?, b.number? with
    | some r, some r' => r == r'
    | _, _ => false

def sameItems : List Setting → List Setting → Bool
  | [], [] => true
  | item :: items, item' :: items' => item.same item' && sameItems items items'
  | _, _ => false

/-- Whether every field of the first record is in the second, with the same value. -/
def sameFields : List (String × Setting) → List (String × Setting) → Bool
  | [], _ => true
  | (key, value) :: fields, fields' =>
    (match fields'.lookup key with
      | some value' => value.same value'
      | none => false) && sameFields fields fields'

end

end Setting

end RangeRead
