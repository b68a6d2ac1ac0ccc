import RangeRead.Object

/-!
# Notices

What channels and ranges tell about their work while they do it. A `Notice` is an event; `Notice.message` is its
text.
-/

namespace RangeRead

/-- What a channel observed about the way its object is read. -/
inductive PatternChange
  /-- Back-to-back requests made random reads sequential again. -/
  | backToBack
  /-- A seek before the open range's cursor made reads random. -/
  | backward (cursor target : Int)
  /-- A seek further than the limit past the open range's cursor made reads random. -/
  | forward (cursor target : Int) (limit : Nat)
  deriving DecidableEq, Repr

inductive Notice
  | opened (start stop : Int) (object : ObjectHandle)
  | closeFailed (object : ObjectHandle)
  | patternChanged (change : PatternChange) (object : ObjectHandle)
  | emptyRead (position stop : Int) (object : ObjectHandle)
  | endedInSkip (target : Int) (object : ObjectHandle)
  | requesting (start stop : Int) (object : ObjectHandle)
  deriving DecidableEq, Repr

/-- The text of a notice. -/
def Notice.message : Notice → String
  | opened start stop object => s!"Opened range [{start}, {stop}) of '{object.label}'"
  | closeFailed object => s!"Got an exception on range close for '{object.label}'; ignoring it."
  | patternChanged .backToBack object =>
    s!"Detected sequential read pattern, switching to sequential IO for '{object.label}'"
  | patternChanged (.backward cursor target) object =>
    s!"Detected backward read from {cursor} to {target} position, switching to random IO for '{object.label}'"
  | patternChanged (.forward cursor target limit) object =>
    s!"Detected forward read from {cursor} to {target} position over {limit} threshold, " ++
      s!"switching to random IO for '{object.label}'"
  | emptyRead position stop object =>
    s!"Read 0 bytes at position {position} with range ending at {stop} for '{object.label}' " ++
      s!"of size {object.size}"
  | endedInSkip target object => s!"Range of '{object.label}' ended while skipping to {target}; closing it"
  | requesting start stop object => s!"Requesting bytes [{start}, {stop}) of '{object.label}'"

end RangeRead
