import RangeRead.Error
import RangeRead.Number.Double

/-!
# Request traces

A `RequestTrace` lists the range requests that were made since it was last cleared, in order. A record is known by
its serial number, which clearing does not start anew: bytes that arrive for a record that has been cleared away
are counted nowhere.
-/

namespace RangeRead

/-- One range request. `bytesRead` counts the bytes that were pulled from the range so far. -/
structure RequestRecord where
  path : String
  start : Int
  length : Int
  timestamp : Float
  duration : Option Float := none
  bytesRead : Int := 0
  deriving Inhabited

namespace RequestRecord

/-- The offset that the range ends before. -/
def stop (r : RequestRecord) : Int := r.start + r.length

/-- The names of what a record holds, in order. -/
def columns : List String := ["path", "start", "length", "end", "timestamp", "duration", "bytes_read"]

end RequestRecord

structure RequestTrace where
  requests : List RequestRecord := []
  /-- How many records have been cleared away. -/
  cleared : Nat := 0
  deriving Inhabited

/-- An exact number that no double is near. -/
inductive NumberError
  | quotientTooLarge
  | integerTooLarge
  deriving DecidableEq, Repr

def NumberError.message : NumberError → String
  | quotientTooLarge => "integer division result too large for a float"
  | integerTooLarge => "int too large to convert to float"

def NumberError.kind (_ : NumberError) : ErrorKind := .overflow

/-- The sizes of the requests of a trace that has some. -/
structure RequestSizes where
  least : Int
  greatest : Int
  mean : Float

structure TraceSummary where
  totalRequests : Nat
  totalBytes : Int
  totalBytesRead : Int
  uniqueFiles : Nat
  sizes : Option RequestSizes

namespace RequestTrace

/-! ## Recording -/

/-- Adds a record and answers with its serial number. -/
def add (t : RequestTrace) (r : RequestRecord) : Nat × RequestTrace :=
  (t.cleared + t.requests.length, { t with requests := t.requests ++ [r] })

/-- Clears all records away. -/
def clear (t : RequestTrace) : RequestTrace := { requests := [], cleared := t.cleared + t.requests.length }

/-- Changes the bytes read of the record with a serial number, if it has not been cleared away. -/
def updateBytesRead (t : RequestTrace) (serial : Nat) (f : Int → Int) : RequestTrace :=
  if serial < t.cleared then t
  else
    { t with
      requests := t.requests.modify (serial - t.cleared) fun r => { r with bytesRead := f r.bytesRead } }

/-- Sets the bytes read of the record at an index. -/
def setBytesRead (t : RequestTrace) (index : Nat) (n : Int) : RequestTrace :=
  t.updateBytesRead (t.cleared + index) fun _ => n

/-! ## Totals -/

def totalRequests (t : RequestTrace) : Nat := t.requests.length

/-- The bytes asked for. -/
def totalBytes (t : RequestTrace) : Int := t.requests.foldl (fun n r => n + r.length) 0

/-- The bytes pulled. -/
def totalBytesRead (t : RequestTrace) : Int := t.requests.foldl (fun n r => n + r.bytesRead) 0

/-- The number of different paths. -/
def uniqueFiles (t : RequestTrace) : Nat := (t.requests.map RequestRecord.path).eraseDups.length

/-- The least, the greatest and the mean size of the requests. The mean is the exact quotient, rounded once. -/
def sizes (t : RequestTrace) : Except NumberError (Option RequestSizes) :=
  match t.requests.map RequestRecord.length with
  | [] => .ok none
  | first :: rest =>
    match Number.nearest? (mkRat t.totalBytes t.totalRequests) with
    | none => .error .quotientTooLarge
    | some mean => .ok (some ⟨rest.foldl min first, rest.foldl max first, mean⟩)

def summary (t : RequestTrace) : Except NumberError TraceSummary :=
  t.sizes.map fun sizes => ⟨t.totalRequests, t.totalBytes, t.totalBytesRead, t.uniqueFiles, sizes⟩

end RequestTrace

end RangeRead
