import RangeRead.Options
import RangeRead.Text.Numeral

/-!
# Options from a mapping of texts

Options may be kept as texts under fixed keys, for instance among the properties of a query engine, with a common
lead in front of every key. All numbers and the truth value are read first; what they say is checked after that,
as for any settings.
-/

namespace RangeRead.OptionKey

def accessPattern : String := "read.adaptive-range.file-access-pattern"

def minRangeRequestSize : String := "read.adaptive-range.min-range-request-size-bytes"

def inplaceSeekLimit : String := "read.adaptive-range.inplace-seek-limit-bytes"

def sequentialThreshold : String := "read.adaptive-range.sequential-range-read-threshold"

def adaptive : String := "read.adaptive-range.enabled"

/-- The recognised keys. -/
def all : List String := [accessPattern, minRangeRequestSize, inplaceSeekLimit, sequentialThreshold, adaptive]

end RangeRead.OptionKey

namespace RangeRead

/-! ## Truth words -/

def yesWords : List String := ["true", "1", "yes", "on"]

def noWords : List String := ["false", "0", "no", "off"]

/-- The truth value of a word in letters of any case. As with access patterns, only ASCII letters matter. -/
def flag? (s : String) : Option Bool :=
  let word := (Text.trim s).toLower
  if yesWords.contains word then some true else if noWords.contains word then some false else none

/-! ## Reading a mapping -/

/-- The number kept under a key, if there is any. -/
def readInteger (key : String) : Option String → Except OptionsError (Option Setting)
  | none => .ok none
  | some given =>
    match Text.integer? given with
    | some n => .ok (some (.whole n))
    | none => .error (.badInteger key given)

/-- The truth value kept under a key, if there is any. -/
def readFlag (key : String) : Option String → Except OptionsError (Option Setting)
  | none => .ok none
  | some given =>
    match flag? given with
    | some b => .ok (some (.flag b))
    | none => .error (.badFlag key given)

/-- The settings that a mapping keeps under the recognised keys, each behind `lead`. -/
def OptionChanges.ofMapping (mapping : String → Option String) (lead : String) :
    Except OptionsError OptionChanges := do
  let read (key : String) := readInteger (lead ++ key) (mapping (lead ++ key))
  let minimum ← read OptionKey.minRangeRequestSize
  let limit ← read OptionKey.inplaceSeekLimit
  let threshold ← read OptionKey.sequentialThreshold
  let adaptive ← readFlag (lead ++ OptionKey.adaptive) (mapping (lead ++ OptionKey.adaptive))
  return {
    accessPattern := (mapping (lead ++ OptionKey.accessPattern)).map fun s => .text (Text.trim s)
    minRangeRequestSize := minimum
    inplaceSeekLimit := limit
    sequentialThreshold := threshold
    adaptive := adaptive }

/-- The options that a mapping describes; other keys are ignored and missing ones keep their defaults. -/
def ReadOptions.ofMapping (mapping : String → Option String) (lead : String) :
    Except OptionsError ReadOptions := do
  ReadOptions.ofChanges (← OptionChanges.ofMapping mapping lead)

end RangeRead
