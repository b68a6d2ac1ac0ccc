import RangeRead.Error
import RangeRead.Notice

/-!
# Transports

A `Transport` opens byte ranges of objects. It is given by its operations on the state `σ` of all that lies behind
it; an open range is a value of type `H`, and every operation on a range gives the value to use from then on.

A read of a range either fails, or tells that the range has ended, or delivers bytes. A range is expected to report
exactly the bytes that it wrote, and to write none when it tells its end; the `excess` of a delivery is what it
reports beyond the bytes that it wrote.

Opening a range for a channel also pins it to its window (`Transport.openPinned`), and closing one never fails
(`Transport.closeQuietly`). A transport can be used on a larger state (`Transport.within`).
-/

namespace RangeRead

/-- What a range answers when it is asked for bytes. -/
inductive Reply
  | failed (error : ReadError)
  /-- The range has ended; `bytes` were written without being reported. -/
  | endOfStream (bytes : ByteArray)
  /-- The bytes written, and how many more than these are reported. -/
  | delivered (bytes : ByteArray) (excess : Int)

/-- How much was read into a buffer. -/
inductive ReadCount
  | endOfStream
  | bytes (n : Int)
  deriving DecidableEq, Repr

/-- The number that stands for a count; the end of the stream is `-1`. -/
def ReadCount.code : ReadCount → Int
  | endOfStream => -1
  | bytes n => n

/-- The reply of a range that wrote `bytes` and answers with a number: `-1` tells the end, any other number is the
count that it reports. -/
def Reply.ofCode (bytes : ByteArray) (code : Int) : Reply :=
  if code = -1 then .endOfStream bytes else .delivered bytes (code - bytes.size)

/-- What reading a range into a buffer comes to: the count, and the buffer as it is afterwards. Bytes that are not
written stay as they were. -/
def Reply.into (buffer : ByteArray) : Reply → Except ReadError (ReadCount × ByteArray)
  | failed e => .error e
  | endOfStream bytes => .ok (.endOfStream, bytes ++ buffer.extract bytes.size buffer.size)
  | delivered bytes excess => .ok (.bytes (bytes.size + excess), bytes ++ buffer.extract bytes.size buffer.size)

/-- A way to open and use byte ranges. -/
structure Transport (σ H : Type) where
  /-- Opens the range from the first offset to the second. -/
  openRange : ObjectHandle → Int → Int → σ → Except ReadError H × σ
  /-- Sets the start or the end of the range, before anything is read from it. -/
  pin : Pin → Int → H → σ → Except ReadError Unit × H × σ
  /-- Asks for at most the given number of bytes. -/
  read : Nat → H → σ → Reply × H × σ
  close : H → σ → Except ReadError Unit × σ
  /-- Takes down a notice. -/
  note : Notice → σ → σ

namespace Transport

variable {σ H : Type}

/-- Closes a range; an error is noted and otherwise ignored. -/
def closeQuietly (t : Transport σ H) (object : ObjectHandle) (h : H) (s : σ) : σ :=
  match t.close h s with
  | (.ok _, s) => s
  | (.error _, s) => t.note (.closeFailed object) s

/-- Pins a range to its window: first its start, then its end. -/
def pinBoth (t : Transport σ H) (start stop : Int) (h : H) (s : σ) : Except ReadError Unit × H × σ :=
  match t.pin .seek start h s with
  | (.ok _, h, s) => t.pin .limit stop h s
  | failure => failure

/-- Opens a range and pins it to its window. A range that cannot be pinned is closed again. -/
def openPinned (t : Transport σ H) (object : ObjectHandle) (start stop : Int) (s : σ) : Except ReadError H × σ :=
  match t.openRange object start stop s with
  | (.error e, s) => (.error (.notOpened start stop object e), s)
  | (.ok h, s) =>
    match t.pinBoth start stop h s with
    | (.ok _, h, s) => (.ok h, t.note (.opened start stop object) s)
    | (.error e, h, s) => (.error (.notPinned start stop object e), t.closeQuietly object h s)

/-- The transport as it acts on a larger state that its own is a part of. -/
def within {τ : Type} (t : Transport σ H) (part : τ → σ) (put : σ → τ → τ) : Transport τ H where
  openRange object start stop s :=
    let (answer, state) := t.openRange object start stop (part s)
    (answer, put state s)
  pin pin offset h s :=
    let (answer, h, state) := t.pin pin offset h (part s)
    (answer, h, put state s)
  read want h s :=
    let (reply, h, state) := t.read want h (part s)
    (reply, h, put state s)
  close h s :=
    let (answer, state) := t.close h (part s)
    (answer, put state s)
  note notice s := put (t.note notice (part s)) s

end Transport

end RangeRead
