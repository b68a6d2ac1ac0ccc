import RangeRead.Store.Range

/-!
# Calls of a range

The calls that a range of a store takes, in any order, and what each of them answers (`Store.callRange`).
-/

namespace RangeRead

inductive RangeCall
  | pin (pin : Pin) (offset : Int)
  | readInto (buffer : ByteArray)
  | close

/-- What a call answers. -/
inductive RangeAnswer
  | pinned (answer : Except ReadError Unit)
  /-- How much was read, and the buffer as it is afterwards. -/
  | filled (answer : Except ReadError (ReadCount × ByteArray))
  | closed

/-- Makes a call of a range. -/
def Store.callRange {σ C : Type} (store : Store σ C) (call : RangeCall) (r : StoreRange C) (s : σ) :
    RangeAnswer × StoreRange C × σ :=
  match call with
  | .pin pin offset =>
    let (answer, r) := pinRange pin offset r
    (.pinned answer, r, s)
  | .readInto buffer =>
    let (reply, r, s) := store.readRange buffer.size r s
    (.filled (reply.into buffer), r, s)
  | .close => (.closed, closeRange r, s)

end RangeRead
