import RangeRead.Channel.Reposition

/-!
# Filling a buffer

`Channel.fill` reads until as many bytes as wanted are there or the object ends, opening ranges as they are
needed. A range that ends at its declared end before the object does is followed by another; one that ends
anywhere else but at the end of the object is an error.

What has been read is a `Filling`: the number of bytes reported and the front of the buffer as far as it has been
written. Ranges put their bytes behind those that are counted, so that a range that reports more than it wrote
leaves bytes of the buffer as they were (`gap`), and one that reports fewer has the next bytes overwrite its own.
-/

namespace RangeRead

/-- The front of a buffer that is being filled. -/
structure Filling where
  /-- How many bytes the ranges have reported. -/
  count : Int := 0
  /-- The buffer as far as it has been written. -/
  front : ByteArray := .empty

/-- Where in a buffer of `size` bytes the next bytes go: behind the counted ones, or, if the count is below zero, so
far before the end. -/
def fillOffset (size : Nat) (count : Int) : Nat := if 0 ≤ count then count.toNat else (size + count).toNat

/-- The front of a buffer after bytes have been put at an offset; `gap` gives what the buffer held before. -/
def overwrite (gap : Nat → Nat → ByteArray) (front : ByteArray) (offset : Nat) (bytes : ByteArray) : ByteArray :=
  if front.size ≤ offset then front ++ gap front.size offset ++ bytes
  else front.extract 0 offset ++ bytes ++ front.extract (offset + bytes.size) front.size

namespace Filling

/-- How many bytes of the buffer are still to be filled. -/
def room (size : Nat) (got : Filling) : Nat := size - fillOffset size got.count

/-- The filling after bytes have been written and `reported` have been reported for them. -/
def add (gap : Nat → Nat → ByteArray) (size : Nat) (got : Filling) (bytes : ByteArray) (reported : Int) : Filling :=
  match got with
  | ⟨count, front⟩ => ⟨count + reported, overwrite gap front (fillOffset size count) bytes⟩

/-- The buffer's first `stop` bytes. -/
def firstBytes (gap : Nat → Nat → ByteArray) (stop : Nat) (got : Filling) : ByteArray :=
  if got.front.size ≤ stop then got.front ++ gap got.front.size stop else got.front.extract 0 stop

end Filling

namespace Sizing

/-- Decides the end of the next range request. -/
def rangeEnd (start need size : Int) : Sizing → Int × Option PatternChange × Sizing
  | .wholeObject => (size, none, .wholeObject)
  | .adaptive strategy =>
    let (stop, change, strategy) := strategy.rangeEnd start need size
    (stop, change, .adaptive strategy)

end Sizing

namespace Channel

variable {σ H : Type}

/-- The open range, or else a new one at the position, from which `need` bytes are asked. -/
def ensureRange (t : Transport σ H) (need : Int) (c : Channel H) (s : σ) :
    Except ReadError (OpenRange H) × Channel H × σ :=
  match c.range with
  | some r => (.ok r, c, s)
  | none =>
    let (stop, change, sizing) := c.sizing.rangeEnd c.position need c.object.size
    let c := { c with sizing := sizing }
    let s := noteChange t c.object change s
    match t.openPinned c.object c.position stop s with
    | (.error e, s) => (.error e, c, s)
    | (.ok h, s) =>
      let r := ⟨h, c.position, stop⟩
      (.ok r, { c with range := some r }, s)

/-- Takes down that a range delivered nothing; a simple channel does not. -/
def noteEmptyRead (t : Transport σ H) (c : Channel H) (stop : Int) (s : σ) : σ :=
  match c.sizing with
  | .wholeObject => s
  | .adaptive _ => t.note (.emptyRead c.position stop c.object) s

/-- The error of a range that ended too early. -/
def cutShort (c : Channel H) (stop : Int) : ReadError :=
  match c.sizing with
  | .wholeObject => .objectCutShort c.position c.object
  | .adaptive _ => .rangeCutShort c.position stop c.object

/-- Reads until `want` bytes are there or the object ends, with at most `patience` reads. After an error no range
is open. -/
def fill (t : Transport σ H) (want : Nat) (gap : Nat → Nat → ByteArray) :
    Nat → Filling → Channel H → σ → Outcome ReadError Filling × Channel H × σ
  | 0, _, c, s => (.stalled, c, s)
  | patience + 1, got, c, s =>
    match c.ensureRange t (want - got.count) s with
    | (.error e, c, s) => (.failed e, c, s)
    | (.ok r, c, s) =>
      match t.read (got.room want) r.handle s with
      | (.failed e, h, s) => (.failed e, dropRange t { c with range := some { r with handle := h } } s)
      | (.endOfStream bytes, h, s) =>
        let c := { c with range := some { r with handle := h } }
        let got := got.add gap want bytes 0
        if c.position ≠ r.stop ∧ c.position ≠ c.object.size then (.failed (c.cutShort r.stop), dropRange t c s)
        else if c.position = r.stop ∧ r.stop ≠ c.object.size then
          let (c, s) := dropRange t c s
          fill t want gap patience got c s
        else (.done got, c, s)
      | (.delivered bytes excess, h, s) =>
        let n : Int := bytes.size + excess
        let s := if n = 0 then c.noteEmptyRead t r.stop s else s
        let c :=
          { c with
            position := c.position + n
            range := some { r with handle := h, cursor := r.cursor + n } }
        let got := got.add gap want bytes n
        if want ≤ got.count then (.done got, c, s) else fill t want gap patience got c s

end Channel

end RangeRead
