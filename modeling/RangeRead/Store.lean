import RangeRead.Error
import RangeRead.Notice

/-!
# Object stores

A `Store` answers two kinds of requests: for the metadata of the object at a path, and for a range of its bytes,
which arrives as a stream of chunks. It is given by its operations on the state `σ` of the store and on the
streams of type `C` under way. Every stream has finitely many chunks left; `Store.bounded` makes a store of streams
that are cut off at a bound.

`Store.pin` asks for the metadata of an object and makes a handle from them.
-/

namespace RangeRead

/-! ## Handles -/

/-- A handle for an object of the given size, which must not be negative. -/
def ObjectHandle.create (path : String) (size : Int) (eTag version storeId : Option String) :
    Except ReadError ObjectHandle :=
  if size < 0 then .error (.negativeSize size)
  else .ok { path := path, size := size.toNat, eTag := eTag, version := version, storeId := storeId }

/-! ## Stores -/

/-- What a store tells about an object. -/
structure Metadata where
  size : Option Int
  eTag : Option String := none
  version : Option String := none

/-- What a stream gives when it is asked for its next chunk. -/
inductive Pull
  | failed (error : ReadError)
  | ended
  | chunk (bytes : ByteArray)

structure Store (σ C : Type) where
  head : String → σ → Except ReadError Metadata × σ
  /-- Asks for the bytes from the first offset to the second, of a version if one is given. -/
  get : String → Int → Int → Option String → σ → Except ReadError C × σ
  next : C → σ → Pull × C × σ
  /-- A bound on the chunks that a stream still has. -/
  chunksLeft : C → Nat
  /-- Takes down a notice. -/
  note : Notice → σ → σ
  chunksLeft_lt : ∀ {stream stream' : C} {s s' : σ} {bytes : ByteArray},
    next stream s = (.chunk bytes, stream', s') → chunksLeft stream' < chunksLeft stream

/-- Pins the object at a path to the size and version that the store reports. -/
def Store.pin {σ C : Type} (store : Store σ C) (path : String) (storeId : Option String) (s : σ) :
    Except ReadError ObjectHandle × σ :=
  match store.head path s with
  | (.error e, s) => (.error e, s)
  | (.ok found, s) =>
    match found.size with
    | none => (.error .missingSize, s)
    | some size => (ObjectHandle.create path size found.eTag found.version storeId, s)

/-! ## Streams with a bound -/

/-- A stream with a bound on the chunks that it still sends. -/
structure BoundedStream (C : Type) where
  stream : C
  left : Nat

/-- The next chunk of a stream with a bound. At the bound the stream has ended. -/
def BoundedStream.next {σ C : Type} (next : C → σ → Pull × C × σ) (b : BoundedStream C) (s : σ) :
    Pull × BoundedStream C × σ :=
  match b.left with
  | 0 => (.ended, b, s)
  | left + 1 =>
    let (pull, stream, s) := next b.stream s
    (pull, ⟨stream, left⟩, s)

/-- A chunk brings a stream nearer to its bound. -/
theorem BoundedStream.left_lt_of_next {σ C : Type} {next : C → σ → Pull × C × σ} {b b' : BoundedStream C} {s s' : σ}
    {bytes : ByteArray} (h : b.next next s = (.chunk bytes, b', s')) : b'.left < b.left := by
  unfold BoundedStream.next at h
  split at h
  · simp at h
  · rename_i left hb
    simp only [Prod.mk.injEq] at h
    obtain ⟨-, rfl, -⟩ := h
    simp [hb]

/-- The store of the given operations, in which every answer comes with a bound on its chunks. -/
def Store.bounded {σ C : Type} (head : String → σ → Except ReadError Metadata × σ)
    (get : String → Int → Int → Option String → σ → Except ReadError (BoundedStream C) × σ)
    (next : C → σ → Pull × C × σ) (note : Notice → σ → σ) : Store σ (BoundedStream C) where
  head := head
  get := get
  next := BoundedStream.next next
  chunksLeft := BoundedStream.left
  note := note
  chunksLeft_lt := BoundedStream.left_lt_of_next

end RangeRead
