import RangeRead.Channel.Open

/-!
# Runs of a channel

An `Operation` is one call on a channel and an `Answer` is what it gives back. `Channel.perform` does one operation
and `Channel.run` a list of them; a run goes on after an operation that failed.
-/

namespace RangeRead

/-- A call on a channel. -/
inductive Operation
  /-- Read at most so many bytes, or all that are left. -/
  | read (n : Option Int)
  | readAll
  | readInto (buffer : ByteArray)
  | seek (offset whence : Int)
  | tell
  | close

/-- What a call gives back. -/
inductive Answer
  | bytes (bytes : ByteArray)
  | filled (count : ReadCount) (buffer : ByteArray)
  | position (position : Int)
  | closed

namespace Channel

variable {σ H ρ : Type}

/-- Does one operation. -/
def perform (src : Source σ H ρ) (patience : Nat) (operation : Operation) (c : Channel H) (w : World σ ρ) :
    Outcome ReadError Answer × Channel H × World σ ρ :=
  match operation with
  | .read n =>
    let (answer, c, w) := c.read src patience n w
    (answer.map .bytes, c, w)
  | .readAll =>
    let (answer, c, w) := c.read src patience none w
    (answer.map .bytes, c, w)
  | .readInto buffer =>
    let (answer, c, w) := c.readInto src patience buffer w
    (answer.map fun filled => .filled filled.1 filled.2, c, w)
  | .seek offset whence =>
    let (answer, c, s) := c.seek src.transport offset whence w.transport
    ((Outcome.ofExcept answer).map .position, c, { w with transport := s })
  | .tell => ((Outcome.ofExcept c.tell).map .position, c, w)
  | .close =>
    let (c, s) := c.close src.transport w.transport
    (.done .closed, c, { w with transport := s })

/-- Does operations one after the other. -/
def run (src : Source σ H ρ) (patience : Nat) :
    List Operation → Channel H → World σ ρ → List (Outcome ReadError Answer) × Channel H × World σ ρ
  | [], c, w => ([], c, w)
  | operation :: operations, c, w =>
    let (answer, c, w) := c.perform src patience operation w
    let (answers, c, w) := run src patience operations c w
    (answer :: answers, c, w)

end Channel

end RangeRead
