import RangeRead.Options
import RangeRead.Notice

/-!
# Classifying reads and sizing ranges

A `Strategy` holds whether the reads of one channel count as random. Ranges of sequential reads run to the end of
the object; ranges of random reads cover what is asked for and at least the minimum size. In automatic mode a
backward seek, or one further forward than the limit, makes reads random, and enough back-to-back range requests
make them sequential again; the other two modes never change.
-/

namespace RangeRead

structure Strategy where
  options : ReadOptions
  isRandom : Bool
  /-- Where the latest range request ended; `-1` before the first. -/
  lastEnd : Int := -1
  /-- How many of the latest range requests started where the one before them ended. -/
  backToBack : Nat := 0

namespace Strategy

/-- The strategy of a channel that has not read yet. -/
def ofOptions (o : ReadOptions) : Strategy := { options := o, isRandom := o.accessPattern == .random }

/-- Whether the mode lets the classification change. -/
def isAuto (s : Strategy) : Bool := s.options.accessPattern == .auto

/-- Whether a seek may still make reads random. -/
def detects (s : Strategy) : Bool := !s.isRandom && s.isAuto

/-! ## Range requests -/

/-- What a range request at `start` says about the pattern: while reads are random, requests that start where
the one before them ended are counted, and more than the threshold of them make reads sequential. -/
def observeRequest (s : Strategy) (start : Int) : Option PatternChange × Strategy :=
  if s.isRandom then
    if start = s.lastEnd then
      let counted := { s with backToBack := s.backToBack + 1 }
      if s.options.sequentialThreshold < counted.backToBack ∧ s.isAuto then
        (some .backToBack, { counted with isRandom := false })
      else (none, counted)
    else (none, { s with backToBack := 0 })
  else (none, s)

/-- The end of a range that starts at `start`, from which `need` bytes are asked, of an object of the given
size. -/
def extent (s : Strategy) (start need size : Int) : Int :=
  if s.isRandom then min (start + max need s.options.minRangeRequestSize) size else size

/-- Decides the end of the next range request. -/
def rangeEnd (s : Strategy) (start need size : Int) : Int × Option PatternChange × Strategy :=
  let (change, s) := s.observeRequest start
  let stop := s.extent start need size
  (stop, change, { s with lastEnd := stop })

/-! ## Seeks -/

/-- What a seek to `target` that leaves the open range says about the pattern, given the cursor of that range. A
cursor below zero tells nothing about the distance forward. -/
def observeSeek (s : Strategy) (target cursor : Int) : Option PatternChange × Strategy :=
  if !s.detects then (none, s)
  else if target < cursor then (some (.backward cursor target), { s with isRandom := true })
  else if 0 ≤ cursor ∧ cursor + s.options.inplaceSeekLimit < target then
    (some (.forward cursor target s.options.inplaceSeekLimit), { s with isRandom := true })
  else (none, s)

/-- Whether a seek to `target` is served by skipping bytes of the open range, which runs from its cursor to
`stop`: the target lies ahead, within the limit and inside the range. -/
def canSkip (s : Strategy) (target cursor stop : Int) : Bool :=
  0 < target - cursor && target - cursor ≤ s.options.inplaceSeekLimit && target < stop

end Strategy

end RangeRead
