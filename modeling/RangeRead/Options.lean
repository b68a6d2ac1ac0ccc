import RangeRead.Error
import RangeRead.Setting

/-!
# Read options

`ReadOptions` holds how a channel is expected to be read and how its range requests are sized. Options are made
from raw settings by `ReadOptions.replace`, which checks them in a fixed order: first the access pattern, then
each of the three sizes for its kind and its sign, and last that the smallest request is not empty.
-/

namespace RangeRead

/-! ## Access patterns -/

/-- How a channel expects an object to be read. -/
inductive AccessPattern
  /-- Every range request runs to the end of the object. -/
  | sequential
  /-- Range requests cover what is asked for, and at least a minimum size. -/
  | random
  /-- Starts sequential and adapts to the observed seeks. -/
  | auto
  deriving DecidableEq, Repr

namespace AccessPattern

def all : List AccessPattern := [sequential, random, auto]

def name : AccessPattern → String
  | sequential => "sequential"
  | random => "random"
  | auto => "auto"

/-- The pattern of a name in letters of any case. Outside the ASCII letters no letter has one of the letters of
these names as its lower-case form, so it is enough to lower those. -/
def ofName? (s : String) : Option AccessPattern := all.find? fun pattern => pattern.name == s.toLower

end AccessPattern

/-! ## Options -/

/-- The options of a read channel. -/
structure ReadOptions where
  accessPattern : AccessPattern := .auto
  /-- The smallest range request of random reads, in bytes. -/
  minRangeRequestSize : Nat := 2 * 1024 * 1024
  /-- The longest forward seek that is served by discarding bytes of the open range. -/
  inplaceSeekLimit : Nat := 8 * 1024 * 1024
  /-- After more than this many back-to-back range requests, random reads become sequential again. -/
  sequentialThreshold : Nat := 1
  /-- Whether a channel adapts its range requests; it does if this counts as yes. -/
  adaptive : Setting := .flag true
  minRangeRequestSize_pos : 0 < minRangeRequestSize := by decide

/-- The options that hold where none are given. -/
def ReadOptions.standard : ReadOptions := {}

instance : Inhabited ReadOptions := ⟨.standard⟩

/-- The sizes among the options. -/
inductive SizeOption
  | minRangeRequestSize
  | inplaceSeekLimit
  | sequentialThreshold
  deriving DecidableEq, Repr

def SizeOption.name : SizeOption → String
  | minRangeRequestSize => "min_range_request_size"
  | inplaceSeekLimit => "inplace_seek_limit"
  | sequentialThreshold => "sequential_range_read_threshold"

/-- Why settings are no options. -/
inductive OptionsError
  | unknownPattern (given : Setting)
  | notAnInteger (option : SizeOption) (given : Setting)
  | negative (option : SizeOption) (given : Int)
  | emptyRequests
  | badInteger (key given : String)
  | badFlag (key given : String)

/-- The text of an error in the options. -/
def OptionsError.message : OptionsError → String
  | unknownPattern given =>
    s!"Invalid access pattern {given.display}, expected one of: " ++
      String.intercalate ", " (AccessPattern.all.map AccessPattern.name)
  | notAnInteger option given => s!"{option.name} must be an integer, got {given.display}"
  | negative option given => s!"{option.name} must be non-negative, got {given}"
  | emptyRequests => s!"{SizeOption.minRangeRequestSize.name} must be greater than zero"
  | badInteger key given => s!"{key}={Text.quoted given} is not an integer"
  | badFlag key given => s!"{key}={Text.quoted given} is not a boolean"

def OptionsError.kind (_ : OptionsError) : ErrorKind := .invalidValue

/-! ## Changes -/

/-- Raw settings for some of the options. -/
structure OptionChanges where
  accessPattern : Option Setting := none
  minRangeRequestSize : Option Setting := none
  inplaceSeekLimit : Option Setting := none
  sequentialThreshold : Option Setting := none
  adaptive : Option Setting := none

/-- The access pattern that a setting names. -/
def patternFrom (given : Setting) : Except OptionsError AccessPattern :=
  match given with
  | .text s =>
    match AccessPattern.ofName? s with
    | some pattern => .ok pattern
    | none => .error (.unknownPattern given)
  | _ => .error (.unknownPattern given)

/-- The size that a setting gives. -/
def sizeFrom (option : SizeOption) (given : Setting) : Except OptionsError Nat :=
  match given with
  | .whole n => if n < 0 then .error (.negative option n) else .ok n.toNat
  | _ => .error (.notAnInteger option given)

/-- The value that a change gives, or else the value held before. -/
def changed {α : Type} (check : Setting → Except OptionsError α) (old : α) :
    Option Setting → Except OptionsError α
  | none => .ok old
  | some given => check given

namespace ReadOptions

/-- The options with some of them replaced. -/
def replace (o : ReadOptions) (c : OptionChanges) : Except OptionsError ReadOptions := do
  let accessPattern ← changed patternFrom o.accessPattern c.accessPattern
  let minimum ← changed (sizeFrom .minRangeRequestSize) o.minRangeRequestSize c.minRangeRequestSize
  let limit ← changed (sizeFrom .inplaceSeekLimit) o.inplaceSeekLimit c.inplaceSeekLimit
  let threshold ← changed (sizeFrom .sequentialThreshold) o.sequentialThreshold c.sequentialThreshold
  if h : 0 < minimum then
    .ok
      { accessPattern := accessPattern
        minRangeRequestSize := minimum
        inplaceSeekLimit := limit
        sequentialThreshold := threshold
        adaptive := c.adaptive.getD o.adaptive
        minRangeRequestSize_pos := h }
  else .error .emptyRequests

/-- The options that settings describe, with defaults for the others. -/
def ofChanges (c : OptionChanges) : Except OptionsError ReadOptions := ReadOptions.standard.replace c

/-- The options as raw settings. -/
def toChanges (o : ReadOptions) : OptionChanges where
  accessPattern := some (.text o.accessPattern.name)
  minRangeRequestSize := some (.whole o.minRangeRequestSize)
  inplaceSeekLimit := some (.whole o.inplaceSeekLimit)
  sequentialThreshold := some (.whole o.sequentialThreshold)
  adaptive := some o.adaptive

/-- Whether two options are equal in every field. -/
def same (o o' : ReadOptions) : Bool :=
  o.accessPattern == o'.accessPattern && o.minRangeRequestSize == o'.minRangeRequestSize &&
    o.inplaceSeekLimit == o'.inplaceSeekLimit && o.sequentialThreshold == o'.sequentialThreshold &&
    o.adaptive.same o'.adaptive

/-- Whether the options ask for a channel that adapts its range requests. -/
def isAdaptive (o : ReadOptions) : Bool := o.adaptive.truth

end ReadOptions

end RangeRead
