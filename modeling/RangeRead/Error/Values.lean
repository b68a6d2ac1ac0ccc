import RangeRead.Error
import RangeRead.Setting

/-!
# Errors made of values

An error of the library can also be made by a caller, of any values. `ErrorKind.textOf` is its text: in general the
one value or all of them in brackets (`valuesText`), and for a failure of the system a number and a reason, followed
by the names that it concerns (`systemText`).
-/

namespace RangeRead

/-- The text of a value by itself: a text as it is, any other value as it is displayed. -/
def Setting.plain : Setting → String
  | .text s => s
  | value => value.display

/-- The text of an error made of values. -/
def valuesText : List Setting → String
  | [] => ""
  | [value] => value.plain
  | values => "(" ++ String.intercalate ", " (values.map Setting.display) ++ ")"

/-- The names that a failure of the system concerns: the third value, and with it the fifth. The fourth has no
meaning here. -/
def systemNames : List Setting → List Setting
  | [] | .absent :: _ => []
  | [name, _, .absent] => [name]
  | [name, _, second] => [name, second]
  | name :: _ => [name]

/-- The text of a failure of the system, made of two to five values; made of fewer or more it has no number. -/
def systemText (values : List Setting) : String :=
  match values with
  | number :: reason :: names =>
    if 3 < names.length then valuesText values
    else
      let named := (systemNames names).map Setting.display
      s!"[Errno {number.plain}] {reason.plain}" ++
        (if named.isEmpty then "" else ": " ++ String.intercalate " -> " named)
  | _ => valuesText values

/-- The error of a closed channel cannot be made of so many values. -/
structure ExcessValues where
  count : Nat

def ExcessValues.message (e : ExcessValues) : String :=
  s!"ClosedChannelError.__init__() takes from 1 to 2 positional arguments but {e.count + 1} were given"

def ExcessValues.kind (_ : ExcessValues) : ErrorKind := .wrongArguments

/-- The text of an error of a kind that is made of the given values. The error of a closed channel takes one value at
most, and without it has its usual text. -/
def ErrorKind.textOf (kind : ErrorKind) (values : List Setting) : Except ExcessValues String :=
  match kind, values with
  | .closedChannel, [] => .ok ReadError.closedChannel.message
  | .closedChannel, [value] => .ok value.plain
  | .closedChannel, values => .error ⟨values.length⟩
  | .transportOpen, values | .unexpectedEndOfStream, values | .system, values => .ok (systemText values)
  | _, values => .ok (valuesText values)

end RangeRead
