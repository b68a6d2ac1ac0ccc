import RangeRead.Seek
import RangeRead.Strategy
import RangeRead.Transport

/-!
# Read channels

A `Channel` reads one object as a seekable stream of bytes and holds at most one open range of it. Its `Sizing` is
how far its ranges reach: a simple channel always asks for the rest of the object, an adaptive one asks a
`Strategy`.

On an adaptive channel a seek moves only the position, and the next read brings the open range into line with it.
On a simple channel a seek to another position drops the open range.
-/

namespace RangeRead

/-- How far the ranges of a channel reach. -/
inductive Sizing
  /-- Every range runs to the end of the object. -/
  | wholeObject
  | adaptive (strategy : Strategy)

/-- A range that is open: its next byte is the object's byte at `cursor`, and it ends before `stop`. -/
structure OpenRange (H : Type) where
  handle : H
  cursor : Int
  stop : Int

structure Channel (H : Type) where
  object : ObjectHandle
  options : ReadOptions
  sizing : Sizing
  position : Int := 0
  range : Option (OpenRange H) := none
  closed : Bool := false

namespace Channel

variable {σ H : Type}

/-- An adaptive channel at the start of an object. -/
def adaptive (object : ObjectHandle) (options : ReadOptions) : Channel H :=
  { object := object, options := options, sizing := .adaptive (Strategy.ofOptions options) }

/-- A simple channel at the start of an object. -/
def simple (object : ObjectHandle) (options : ReadOptions) : Channel H :=
  { object := object, options := options, sizing := .wholeObject }

/-- Whether reads count as random; a simple channel does not classify them. -/
def isRandom (c : Channel H) : Option Bool :=
  match c.sizing with
  | .wholeObject => none
  | .adaptive strategy => some strategy.isRandom

def isReadable (_ : Channel H) : Bool := true

def isSeekable (_ : Channel H) : Bool := true

/-! ## Description -/

/-- The name of a channel's kind. -/
def kindName (c : Channel H) : String :=
  match c.sizing with
  | .wholeObject => "SimpleReadChannel"
  | .adaptive _ => "AdaptiveReadChannel"

/-- A short text about a channel. -/
def describe (c : Channel H) : String :=
  s!"{c.kindName}(object='{c.object.label}', position={c.position}, closed={Setting.display (.flag c.closed)})"

/-! ## Dropping the range -/

/-- Closes the open range, if there is one. -/
def dropRange (t : Transport σ H) (c : Channel H) (s : σ) : Channel H × σ :=
  match c.range with
  | none => (c, s)
  | some r => ({ c with range := none }, t.closeQuietly c.object r.handle s)

/-- Closes the channel and its open range; closing it again has no effect. -/
def close (t : Transport σ H) (c : Channel H) (s : σ) : Channel H × σ :=
  if c.closed then (c, s)
  else
    let (c, s) := c.dropRange t s
    ({ c with closed := true }, s)

/-! ## Position -/

/-- The position of an open channel. -/
def tell (c : Channel H) : Except ReadError Int := if c.closed then .error .closedChannel else .ok c.position

/-- Moves to a position, which makes a simple channel drop its range unless it is there already. -/
def moveTo (t : Transport σ H) (target : Int) (c : Channel H) (s : σ) : Channel H × σ :=
  match c.sizing with
  | .adaptive _ => ({ c with position := target }, s)
  | .wholeObject =>
    if target = c.position then (c, s)
    else
      let (c, s) := c.dropRange t s
      ({ c with position := target }, s)

/-- Moves the position and answers with the new one. A seek that fails changes nothing. -/
def seek (t : Transport σ H) (offset whence : Int) (c : Channel H) (s : σ) :
    Except ReadError Int × Channel H × σ :=
  if c.closed then (.error .closedChannel, c, s)
  else
    match resolveSeek offset whence c.position c.object.size with
    | .error e => (.error e, c, s)
    | .ok target =>
      let (c, s) := c.moveTo t target s
      (.ok target, c, s)

end Channel

end RangeRead
