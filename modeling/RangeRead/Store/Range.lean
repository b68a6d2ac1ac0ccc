import RangeRead.Store
import RangeRead.Transport

/-!
# Ranges of a store

A `StoreRange` is a range that is read by one request to a store. The request is made by the first read, so that
the range can be pinned until then; the chunks of the answer are handed out as they arrive, cut to the bytes asked
for and to the range. `Store.transport` is the transport that opens such ranges.
-/

namespace RangeRead

structure StoreRange (C : Type) where
  object : ObjectHandle
  start : Int
  stop : Int
  /-- The offset of the next byte that is handed out. -/
  position : Int
  /-- The answer to the request, once it has been made. -/
  stream : Option C := none
  /-- The latest chunk of the answer. -/
  chunk : ByteArray := .empty
  /-- How many bytes of the latest chunk have been handed out. -/
  taken : Nat := 0
  closed : Bool := false

/-- How many bytes of the latest chunk have not been handed out. -/
def StoreRange.pending {C : Type} (r : StoreRange C) : Nat := r.chunk.size - r.taken

namespace Store

variable {σ C : Type}

/-- Opens a range; no request is made yet. -/
def openRange (object : ObjectHandle) (start stop : Int) : Except ReadError (StoreRange C) :=
  if 0 ≤ start ∧ start ≤ stop then .ok { object := object, start := start, stop := stop, position := start }
  else .error (.invalidRange start stop)

/-- Sets the start or the end of a range that has no request under way. -/
def pinRange (pin : Pin) (offset : Int) (r : StoreRange C) : Except ReadError Unit × StoreRange C :=
  match r.stream with
  | some _ => (.error (.startedRange pin), r)
  | none =>
    match pin with
    | .seek => (.ok (), { r with start := offset, position := offset })
    | .limit => (.ok (), { r with stop := offset })

/-- Closes a range and lets go of its request. -/
def closeRange (r : StoreRange C) : StoreRange C :=
  { r with closed := true, stream := none, chunk := .empty, taken := 0 }

/-- Makes the request of a range, unless it has been made; only a request that succeeds counts as made. -/
def request (store : Store σ C) (r : StoreRange C) (s : σ) : Except ReadError C × σ :=
  match r.stream with
  | some stream => (.ok stream, s)
  | none =>
    store.get r.object.path r.start r.stop r.object.version
      (store.note (.requesting r.start r.stop r.object) s)

/-- The next chunk of a stream that is not empty, among at most `count` chunks. -/
def nextFilled (store : Store σ C) : Nat → C → σ → Pull × C × σ
  | 0, stream, s => (.ended, stream, s)
  | count + 1, stream, s =>
    match store.next stream s with
    | (.chunk bytes, stream, s) =>
      if bytes.size = 0 then nextFilled store count stream s else (.chunk bytes, stream, s)
    | answer => answer

/-- Hands out at most `want` of the pending bytes, and none beyond the end of the range. -/
def handOut (want : Nat) (r : StoreRange C) : Reply × StoreRange C :=
  let n := min (min want r.pending) (r.stop - r.position).toNat
  (.delivered (r.chunk.extract r.taken (r.taken + n)) 0,
    { r with position := r.position + n, taken := r.taken + n })

/-- Reads at most `want` bytes from a range. -/
def readRange (store : Store σ C) (want : Nat) (r : StoreRange C) (s : σ) : Reply × StoreRange C × σ :=
  if r.closed then (.failed .closedRange, r, s)
  else if want = 0 then (.delivered .empty 0, r, s)
  else if r.stop ≤ r.position then (.endOfStream .empty, r, s)
  else
    match store.request r s with
    | (.error e, s) => (.failed e, r, s)
    | (.ok stream, s) =>
      if r.pending ≠ 0 then
        let (reply, r) := handOut want { r with stream := some stream }
        (reply, r, s)
      else
        match store.nextFilled (store.chunksLeft stream + 1) stream s with
        | (.failed e, stream, s) => (.failed e, { r with stream := some stream }, s)
        | (.ended, stream, s) => (.endOfStream .empty, { r with stream := some stream }, s)
        | (.chunk bytes, stream, s) =>
          let (reply, r) := handOut want { r with stream := some stream, chunk := bytes, taken := 0 }
          (reply, r, s)

/-- The transport over a store: each open range makes at most one request. -/
def transport (store : Store σ C) : Transport σ (StoreRange C) where
  openRange object start stop s := (openRange object start stop, s)
  pin pin offset r s :=
    let (answer, r) := pinRange pin offset r
    (answer, r, s)
  read want r s := store.readRange want r s
  close _ s := (.ok (), s)
  note notice s := store.note notice s

end Store

end RangeRead
