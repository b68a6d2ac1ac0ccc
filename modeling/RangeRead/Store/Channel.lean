import RangeRead.Channel.Open
import RangeRead.Store.Range

/-!
# Channels over a store

A channel over a store can be opened by path alone; the store is then asked for the object once. A handle that is
given must be for the same path.
-/

namespace RangeRead.Store

variable {σ C : Type}

/-- The object at a path: the given handle, or else one pinned by asking the store. -/
def resolve (store : Store σ C) (path : String) (object : Option ObjectHandle) (s : σ) :
    Except ReadError ObjectHandle × σ :=
  match object with
  | none => store.pin path none s
  | some object => if object.path = path then (.ok object, s) else (.error (.pathMismatch object.path path), s)

/-- Opens a channel on the object at a path. -/
def openChannel (store : Store σ C) (path : String) (object : Option ObjectHandle) (options : Option ReadOptions)
    (s : σ) : Except ReadError (Channel (StoreRange C)) × σ :=
  match store.resolve path object s with
  | (.error e, s) => (.error e, s)
  | (.ok object, s) => (Channel.openRead (some object) options, s)

end RangeRead.Store
