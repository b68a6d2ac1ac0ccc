import RangeRead.Store

/-!
# Stores in memory

`Memory.store` keeps its objects as bytes and answers a request with the bytes asked for that exist, in chunks of
one size.
-/

namespace RangeRead.Memory

/-- Objects by their paths. -/
abbrev Objects := List (String × ByteArray)

/-- The part of an object that is still to be sent. -/
structure Stream where
  data : ByteArray
  position : Nat
  stop : Nat

def missing (path : String) : ReadError := .outside ⟨"FileNotFoundError", s!"Object at location {path} not found"⟩

/-- Sends the next chunk. -/
def send (chunkSize : Nat) (stream : Stream) : Pull × Stream :=
  if stream.position < stream.stop then
    let next := min stream.stop (stream.position + (chunkSize + 1))
    (.chunk (stream.data.extract stream.position next), { stream with position := next })
  else (.ended, stream)

/-- A chunk that is sent leaves less to send. -/
theorem send_lt {chunkSize : Nat} {stream stream' : Stream} {bytes : ByteArray}
    (h : send chunkSize stream = (.chunk bytes, stream')) :
    stream'.stop - stream'.position < stream.stop - stream.position := by
  unfold send at h
  split at h
  · simp only [Prod.mk.injEq, Pull.chunk.injEq] at h
    obtain ⟨-, rfl⟩ := h
    simp only
    omega
  · simp at h

/-- The store of the given objects, whose chunks have one byte more than `chunkSize`, so that none is empty. -/
def store (chunkSize : Nat) : Store Objects Stream where
  head path objects :=
    match objects.lookup path with
    | none => (.error (missing path), objects)
    | some data => (.ok ⟨some data.size, none, none⟩, objects)
  get path start stop _ objects :=
    match objects.lookup path with
    | none => (.error (missing path), objects)
    | some data => (.ok ⟨data, start.toNat, min stop.toNat data.size⟩, objects)
  next stream objects :=
    let (pull, stream) := send chunkSize stream
    (pull, stream, objects)
  chunksLeft stream := stream.stop - stream.position
  note _ objects := objects
  chunksLeft_lt := by
    intro stream stream' s s' bytes h
    simp only [Prod.mk.injEq] at h
    exact send_lt (Prod.ext h.1 h.2.1)

end RangeRead.Memory
