/-!
# Remote objects

An `ObjectHandle` names an object of a store and pins it to a known size and, where the store has one, to a
version. Messages and notices name an object by its `label`.
-/

namespace RangeRead

/-- A remote object pinned to a known size and, optionally, to a version. -/
structure ObjectHandle where
  path : String
  size : Nat
  eTag : Option String := none
  /-- Range requests for the object carry this version. -/
  version : Option String := none
  /-- The store's name, for messages only. -/
  storeId : Option String := none
  deriving DecidableEq, Repr, Inhabited

namespace ObjectHandle

/-- The path, behind the store's name if that is not empty. -/
def location (o : ObjectHandle) : String :=
  match o.storeId with
  | none => o.path
  | some store => if store.isEmpty then o.path else store ++ "/" ++ o.path

/-- The text that stands for the object in messages: its location and, after a `#`, its version. -/
def label (o : ObjectHandle) : String :=
  match o.version with
  | none => o.location
  | some version => o.location ++ "#" ++ version

end ObjectHandle

end RangeRead
