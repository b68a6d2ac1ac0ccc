import RangeRead.Channel.Read

/-!
# Opening channels

The options choose between an adaptive and a simple channel; without options the defaults hold.
-/

namespace RangeRead.Channel

variable {H : Type}

/-- The object that a channel is opened on; there must be one. -/
def required : Option ObjectHandle → Except ReadError ObjectHandle
  | none => .error .missingObject
  | some object => .ok object

/-- Opens an adaptive channel. -/
def openAdaptive (object : Option ObjectHandle) (options : Option ReadOptions) : Except ReadError (Channel H) :=
  (required object).map fun object => .adaptive object (options.getD .standard)

/-- Opens a simple channel, which the sizes among the options do not concern. -/
def openSimple (object : Option ObjectHandle) (options : Option ReadOptions) : Except ReadError (Channel H) :=
  (required object).map fun object => .simple object (options.getD .standard)

/-- Opens the kind of channel that the options ask for. -/
def openRead (object : Option ObjectHandle) (options : Option ReadOptions) : Except ReadError (Channel H) :=
  if (options.getD .standard).isAdaptive then openAdaptive object options else openSimple object options

end RangeRead.Channel
