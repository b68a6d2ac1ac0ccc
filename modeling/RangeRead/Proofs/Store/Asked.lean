import RangeRead.Proofs.Store.Served

/-!
# Stores that take down their requests

`Store.logged` passes all requests on to another store and takes them down. It serves the objects that the store behind
it serves (`Serves.logged`).
-/

namespace RangeRead

variable {σ C : Type}

/-- A request to a store. -/
inductive Request
  | head (path : String)
  | get (path : String) (start stop : Int) (version : Option String)
  deriving DecidableEq

/-- The state of a store and the requests that it got, whether or not they succeeded. -/
structure Asked (σ : Type) where
  behind : σ
  requests : List Request := []

/-- The state of a store that has got no requests yet. -/
def Asked.start (s : σ) : Asked σ := { behind := s }

/-- The store that passes all requests on to another one and takes them down. -/
def Store.logged (store : Store σ C) : Store (Asked σ) C where
  head path s :=
    let (answer, behind) := store.head path s.behind
    (answer, ⟨behind, s.requests ++ [.head path]⟩)
  get path start stop version s :=
    let (answer, behind) := store.get path start stop version s.behind
    (answer, ⟨behind, s.requests ++ [.get path start stop version]⟩)
  next stream s :=
    let (pull, stream, behind) := store.next stream s.behind
    (pull, stream, { s with behind := behind })
  chunksLeft := store.chunksLeft
  note notice s := { s with behind := store.note notice s.behind }
  chunksLeft_lt {stream stream' s s' bytes} h := by
    simp only [Prod.mk.injEq] at h
    have hnext : store.next stream s.behind = (.chunk bytes, stream', (store.next stream s.behind).2.2) :=
      Prod.ext h.1 (Prod.ext h.2.1 rfl)
    exact store.chunksLeft_lt hnext

namespace Store

variable {store : Store σ C} {o : ObjectHandle}

theorem Sends.logged {I : σ → Prop} {chunks : List ByteArray} {stream : C} (h : Sends store I chunks stream) :
    Sends store.logged (fun s => I s.behind) chunks stream := by
  induction chunks generalizing stream with
  | nil => trivial
  | cons chunk chunks ih =>
    intro s hs
    obtain ⟨stream', s', hnext, hs', hrest⟩ := h s.behind hs
    refine ⟨stream', { s with behind := s' }, ?_, hs', ih hrest⟩
    simp only [Store.logged, hnext]

/-- A store that takes down its requests serves as before. -/
theorem Serves.logged {data : ByteArray} {I : σ → Prop} (hserves : store.Serves o data I) :
    store.logged.Serves o data fun s => I s.behind where
  note notice hs := hserves.note notice hs
  head path hs := hserves.head path hs
  get {s start stop} hs hw hlt := by
    obtain ⟨stream, s', chunks, extra, hget, hs', hsends, hjoined⟩ := hserves.get hs hw hlt
    refine ⟨stream, ⟨s', s.requests ++ [.get o.path start stop o.version]⟩, chunks, extra, ?_, hs', hsends.logged,
      hjoined⟩
    simp only [Store.logged, hget]

end Store

end RangeRead
