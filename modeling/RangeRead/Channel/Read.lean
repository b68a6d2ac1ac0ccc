import RangeRead.Buffer
import RangeRead.Channel.Fill
import RangeRead.Metrics

/-!
# Reading

A read delivers the bytes at the position and moves the position past them, and the recorder, if there is one, is
told how many they were. A read that a range or its transport fails leaves the position where it was and no range
open, and the recorder is told nothing. A recorder that refuses fails the read after the position has moved. A read
that there is no memory for changes nothing.
-/

namespace RangeRead

/-- What a channel works with: a transport, perhaps a recorder, and memory for the bytes of a read. -/
structure Source (σ H ρ : Type) where
  transport : Transport σ H
  recorder : Option (Recorder ρ) := none
  memory : Nat

/-- The state of what a channel works with. -/
structure World (σ ρ : Type) where
  transport : σ
  recorder : ρ

/-- The count of what was read into a buffer that is not empty, where nothing means that the object has ended. -/
def Filling.readCount (got : Filling) : ReadCount := if got.count = 0 then .endOfStream else .bytes got.count

namespace Channel

variable {σ H ρ : Type}

/-- Reads `want` bytes at the position, or those that are left. An error puts the position back. -/
def deliver (t : Transport σ H) (patience want : Nat) (gap : Nat → Nat → ByteArray) (c : Channel H) (s : σ) :
    Outcome ReadError Filling × Channel H × σ :=
  match reposition t patience c s with
  | (.failed e, c', s) => (.failed e, { c' with position := c.position }, s)
  | (.stalled, c', s) => (.stalled, c', s)
  | (.done _, c', s) =>
    match fill t want gap patience {} c' s with
    | (.failed e, c', s) => (.failed e, { c' with position := c.position }, s)
    | answer => answer

/-- Tells the recorder the size of a read that delivered something. -/
def report (src : Source σ H ρ) (got : Filling) (w : ρ) : Outcome ReadError Filling × ρ :=
  match src.recorder with
  | none => (.done got, w)
  | some recorder =>
    if got.count ≤ 0 then (.done got, w)
    else
      match recorder.record got.count w with
      | (.ok _, w) => (.done got, w)
      | (.error e, w) => (.failed e, w)

/-- Reads `want` bytes at the position, or those that are left, and reports them. -/
def deliverAndReport (src : Source σ H ρ) (patience want : Nat) (gap : Nat → Nat → ByteArray) (c : Channel H)
    (w : World σ ρ) : Outcome ReadError Filling × Channel H × World σ ρ :=
  match deliver src.transport patience want gap c w.transport with
  | (.done got, c, s) =>
    let (answer, r) := report src got w.recorder
    (answer, c, ⟨s, r⟩)
  | (failure, c, s) => (failure, c, { w with transport := s })

/-- Fills a buffer from the position on. Answers with the count and the buffer as it is afterwards. -/
def readInto (src : Source σ H ρ) (patience : Nat) (buffer : ByteArray) (c : Channel H) (w : World σ ρ) :
    Outcome ReadError (ReadCount × ByteArray) × Channel H × World σ ρ :=
  if c.closed then (.failed .closedChannel, c, w)
  else if buffer.size = 0 then (.done (.bytes 0, buffer), c, w)
  else
    let (answer, c, w) := deliverAndReport src patience buffer.size buffer.extract c w
    (answer.map fun got => (got.readCount, got.firstBytes buffer.extract buffer.size), c, w)

/-- What a new buffer holds from the first offset to the second. -/
def blank (start stop : Nat) : ByteArray := Buffer.filled (stop - start) 0

/-- What a read into a new buffer of `size` bytes delivers: the buffer up to the count, or, if the count is below
zero, up to so far before the end. -/
def delivered (size : Nat) (got : Filling) : ByteArray :=
  if got.count = -1 then .empty
  else got.firstBytes blank (min size (fillOffset size got.count))

/-- How many bytes a read of `n` asks for: all that are left, unless `n` is a smaller number not below zero. -/
def asked (c : Channel H) (n : Option Int) : Int :=
  let left := c.object.size - c.position
  match n with
  | none => left
  | some n => if n < 0 ∨ left < n then left else n

/-- Reads at most `n` bytes, or all that are left. -/
def read (src : Source σ H ρ) (patience : Nat) (n : Option Int) (c : Channel H) (w : World σ ρ) :
    Outcome ReadError ByteArray × Channel H × World σ ρ :=
  if c.closed then (.failed .closedChannel, c, w)
  else
    let want := c.asked n
    if want ≤ 0 then (.done .empty, c, w)
    else
      match Buffer.check src.memory want.toNat with
      | .error e => (.failed e, c, w)
      | .ok _ =>
        let (answer, c, w) := deliverAndReport src patience want.toNat blank c w
        (answer.map (delivered want.toNat), c, w)

end Channel

end RangeRead
