import RangeRead.Object
import RangeRead.Text.Numeral

/-!
# Errors

A `ReadError` is a cause; its wording is `ReadError.message` and its class is `ReadError.kind`. Errors that
transports, stores and observers bring from outside are carried as `Fault`s and never reworded. The two errors
of opening a range keep the error they come from (`ReadError.cause`). An error whose numbers cannot all be written
is shown as an invalid value without a cause (`ReadError.canBeStated`).
-/

namespace RangeRead

/-! ## Kinds -/

/-- The classes of errors. -/
inductive ErrorKind
  /-- Any error of a read channel. -/
  | readChannel
  | closedChannel
  | invalidPosition
  | transportOpen
  | unexpectedEndOfStream
  | invalidValue
  | system
  | missingKey
  | overflow
  | memory
  | statistics
  /-- A value lacks a part that is asked of it. -/
  | missingAttribute
  /-- Values that a call does not take. -/
  | wrongArguments
  deriving DecidableEq, Repr

/-- The general kinds that a kind belongs to: a closed channel and a bad position are also invalid values, and the
failures of a range are also failures of the system. -/
def ErrorKind.families : ErrorKind → List ErrorKind
  | .readChannel => [.readChannel]
  | .closedChannel | .invalidPosition => [.readChannel, .invalidValue]
  | .transportOpen | .unexpectedEndOfStream => [.readChannel, .system]
  | .invalidValue => [.invalidValue]
  | .system => [.system]
  | .missingKey | .overflow | .memory | .statistics | .missingAttribute | .wrongArguments => []

/-! ## Causes -/

/-- An error raised outside the library, with the name that its source gives to its kind. These are errors that a
handler of all ordinary errors catches; what is raised to stop the whole program, such as an interrupt, is none of
them. -/
structure Fault where
  kind : String
  message : String
  deriving DecidableEq, Repr, Inhabited

/-- The two ways to pin an open range to a window. -/
inductive Pin
  | seek
  | limit
  deriving DecidableEq, Repr

def Pin.name : Pin → String
  | .seek => "seek"
  | .limit => "limit"

/-- Why an operation on an object, a range or a channel did not succeed. -/
inductive ReadError
  | closedChannel
  | invalidPosition (position size : Int)
  | invalidWhence (whence : Int)
  | missingObject
  | negativeSize (size : Int)
  | missingSize
  | pathMismatch (held asked : String)
  /-- The transport did not open the range. -/
  | notOpened (start stop : Int) (object : ObjectHandle) (cause : ReadError)
  /-- The range was opened and could not be pinned to its window. -/
  | notPinned (start stop : Int) (object : ObjectHandle) (cause : ReadError)
  /-- A range ended before its declared end. -/
  | rangeCutShort (offset stop : Int) (object : ObjectHandle)
  /-- A range that runs to the end of the object ended before it. -/
  | objectCutShort (offset : Int) (object : ObjectHandle)
  | invalidRange (start stop : Int)
  | closedRange
  /-- A range cannot be pinned once its request is under way. -/
  | startedRange (pin : Pin)
  /-- There is no memory for a buffer of so many bytes. -/
  | bufferTooLarge (size : Nat)
  /-- An ordinary error from outside; see `Fault`. -/
  | outside (fault : Fault)
  deriving DecidableEq, Repr

namespace ReadError

/-- The numbers that an error states. -/
def numbers : ReadError → List Int
  | invalidPosition position size => [position, size]
  | invalidWhence whence => [whence]
  | negativeSize size => [size]
  | notOpened start stop _ _ | notPinned start stop _ _ | invalidRange start stop => [start, stop]
  | rangeCutShort offset stop object => [offset, stop, object.size]
  | objectCutShort offset object => [offset, object.size]
  | closedChannel | missingObject | missingSize | pathMismatch .. | closedRange | startedRange _ | bufferTooLarge _
  | outside _ => []

/-- Whether all numbers of an error can be written. -/
def canBeStated (e : ReadError) : Bool := e.numbers.all Text.isWritable

/-- From this number of bytes on a buffer would have bytes without an index. -/
def indexLimit : Nat := Nat.pow 2 63

/-- The text of an error that can be stated. -/
def statement : ReadError → String
  | closedChannel => "I/O operation on closed channel"
  | invalidPosition position size => s!"Invalid seek position {position}: must be within [0, {size}]"
  | invalidWhence whence => s!"Invalid whence value: {whence}"
  | missingObject => "obj cannot be None"
  | negativeSize size => s!"Object size must be non-negative, got {size}"
  | missingSize => "'size'"
  | pathMismatch held asked => s!"Handle path '{held}' does not match '{asked}'"
  | notOpened start stop object _ => s!"Unable to open range [{start}, {stop}) of '{object.label}'"
  | notPinned start stop object _ =>
    s!"Unable to update the boundaries of range [{start}, {stop}) of '{object.label}'"
  | rangeCutShort offset stop object =>
    s!"Received end of stream at offset {offset} while the range was supposed to end at {stop} " ++
      s!"for '{object.label}' of size {object.size}"
  | objectCutShort offset object =>
    s!"Received end of stream at offset {offset} before the end of '{object.label}' of size {object.size}"
  | invalidRange start stop => s!"Invalid range [{start}, {stop})"
  | closedRange => "I/O operation on closed range"
  | startedRange pin => s!"Cannot {pin.name} a range after reading has started"
  | bufferTooLarge size => if size < indexLimit then "" else "cannot fit 'int' into an index-sized integer"
  | outside fault => fault.message

/-- The text of an error. -/
def message (e : ReadError) : String := if e.canBeStated then e.statement else Text.tooManyDigits

/-- The class of an error of the library itself that can be stated. -/
def statedKind : ReadError → Option ErrorKind
  | closedChannel => some .closedChannel
  | invalidPosition .. => some .invalidPosition
  | invalidWhence .. | missingObject | negativeSize .. | pathMismatch .. | invalidRange .. | closedRange =>
    some .invalidValue
  | missingSize => some .missingKey
  | notOpened .. | notPinned .. => some .transportOpen
  | rangeCutShort .. | objectCutShort .. => some .unexpectedEndOfStream
  | startedRange .. => some .system
  | bufferTooLarge size => some (if size < indexLimit then .memory else .overflow)
  | outside .. => none

/-- The class of an error of the library itself. -/
def kind (e : ReadError) : Option ErrorKind := if e.canBeStated then e.statedKind else some .invalidValue

/-- The error that an opening error comes from. -/
def origin : ReadError → Option ReadError
  | notOpened _ _ _ cause | notPinned _ _ _ cause => some cause
  | _ => none

/-- The error that is shown as the cause of another, which is its origin where that other can be stated. -/
def cause (e : ReadError) : Option ReadError := if e.canBeStated then e.origin else none

end ReadError

/-- How an operation that may wait on a transport for ever comes out: `stalled` is its fate where the transport
kept answering without progress for longer than the caller's patience. -/
inductive Outcome (ε α : Type)
  | done (answer : α)
  | failed (error : ε)
  | stalled
  deriving DecidableEq, Repr

/-- The outcome of what cannot stall. -/
def Outcome.ofExcept {ε α : Type} : Except ε α → Outcome ε α
  | .ok a => .done a
  | .error e => .failed e

def Outcome.map {ε α β : Type} (f : α → β) : Outcome ε α → Outcome ε β
  | .done a => .done (f a)
  | .failed e => .failed e
  | .stalled => .stalled

end RangeRead
