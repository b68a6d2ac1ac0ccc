import RangeRead.Channel.Basic

/-!
# Bringing the open range to the position

Before a read the open range, if there is one, is brought into line with the channel's position. A range whose
cursor is there stays as it is; a target a short way ahead is reached by reading and discarding bytes; any other
range is dropped, and the strategy takes note of the jump.

A loop over the answers of a range makes at most `patience` reads, so that a range that delivers nothing for ever
ends in `Outcome.stalled`.
-/

namespace RangeRead

/-- The most bytes that are discarded by one read. -/
def skipBufferSize : Nat := 8192

namespace Sizing

/-- Whether a seek is served by skipping bytes of the open range. -/
def canSkip (target cursor stop : Int) : Sizing → Bool
  | .wholeObject => false
  | .adaptive strategy => strategy.canSkip target cursor stop

/-- What leaving the open range for `target` says about the pattern. -/
def observeSeek (target cursor : Int) : Sizing → Option PatternChange × Sizing
  | .wholeObject => (none, .wholeObject)
  | .adaptive strategy =>
    let (change, strategy) := strategy.observeSeek target cursor
    (change, .adaptive strategy)

end Sizing

namespace Channel

variable {σ H : Type}

/-- Takes down a change of the pattern, if there was one. -/
def noteChange (t : Transport σ H) (object : ObjectHandle) (change : Option PatternChange) (s : σ) : σ :=
  match change with
  | none => s
  | some change => t.note (.patternChanged change object) s

/-- Reads and discards bytes of the open range until its cursor is at the position. A range that ends on the way
is dropped. -/
def skip (t : Transport σ H) : Nat → Channel H → σ → Outcome ReadError Unit × Channel H × σ
  | 0, c, s => (.stalled, c, s)
  | patience + 1, c, s =>
    match c.range with
    | none => (.done (), c, s)
    | some r =>
      match t.read (min skipBufferSize (c.position - r.cursor).toNat) r.handle s with
      | (.failed e, h, s) => (.failed e, dropRange t { c with range := some { r with handle := h } } s)
      | (.endOfStream _, h, s) =>
        let s := t.note (.endedInSkip c.position c.object) s
        (.done (), dropRange t { c with range := some { r with handle := h } } s)
      | (.delivered bytes excess, h, s) =>
        let cursor := r.cursor + (bytes.size + excess)
        let c := { c with range := some { r with handle := h, cursor := cursor } }
        if c.position ≤ cursor then (.done (), c, s) else skip t patience c s

/-- Brings the open range into line with the position. -/
def reposition (t : Transport σ H) (patience : Nat) (c : Channel H) (s : σ) :
    Outcome ReadError Unit × Channel H × σ :=
  match c.range with
  | none => (.done (), c, s)
  | some r =>
    if c.position = r.cursor then (.done (), c, s)
    else if c.sizing.canSkip c.position r.cursor r.stop then skip t patience c s
    else
      let (change, sizing) := c.sizing.observeSeek c.position r.cursor
      let s := noteChange t c.object change s
      (.done (), dropRange t { c with sizing := sizing } s)

end Channel

end RangeRead
