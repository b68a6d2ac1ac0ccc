import RangeRead.Proofs.Store.Served
import RangeRead.Store.Call

/-!
# The story of a range

`Store.heard` passes everything on to another store and takes down what it is asked for and what it gives. An
`Exchange` is a call of a range with its answer and what was heard of the store meanwhile, and the story of a range are
the exchanges of the calls that it took. From a story it can be told which window the range was pinned to
(`windowAfter`), whether it was closed (`IsClosed`), which requests were granted (`grants`), which bytes arrived
(`response`) and which of them were handed out (`delivered`).
-/

namespace RangeRead

variable {σ C : Type}

/-! ## Stores that are listened to -/

/-- What is heard of a store: that it was asked for a range, and what it gave when asked for a chunk. -/
inductive Hearing
  | asked (path : String) (start stop : Int) (version : Option String) (granted : Bool)
  | pulled (pull : Pull)

/-- The window that a request was granted for. -/
def Hearing.grant? : Hearing → Option (Int × Int)
  | asked _ start stop _ true => some (start, stop)
  | _ => none

/-- The bytes that a stream gives when it is asked for its next chunk. -/
def Pull.bytes : Pull → ByteArray
  | chunk bytes => bytes
  | _ => .empty

/-- The bytes that arrived. -/
def Hearing.bytes : Hearing → ByteArray
  | pulled pull => pull.bytes
  | _ => .empty

/-- The state of a store and what was heard of it. -/
structure Heard (σ : Type) where
  behind : σ
  hearings : List Hearing := []

/-- The store that passes everything on to another one and takes it down. -/
def Store.heard (store : Store σ C) : Store (Heard σ) C where
  head path s :=
    let (answer, behind) := store.head path s.behind
    (answer, { s with behind := behind })
  get path start stop version s :=
    let (answer, behind) := store.get path start stop version s.behind
    (answer, ⟨behind, s.hearings ++ [.asked path start stop version answer.isOk]⟩)
  next stream s :=
    let (pull, stream, behind) := store.next stream s.behind
    (pull, stream, ⟨behind, s.hearings ++ [.pulled pull]⟩)
  chunksLeft := store.chunksLeft
  note notice s := { s with behind := store.note notice s.behind }
  chunksLeft_lt {stream stream' s s' bytes} h := by
    simp only [Prod.mk.injEq] at h
    have hnext : store.next stream s.behind = (.chunk bytes, stream', (store.next stream s.behind).2.2) :=
      Prod.ext h.1 (Prod.ext h.2.1 rfl)
    exact store.chunksLeft_lt hnext

/-! ## Exchanges -/

/-- A call of a range, the answer to it, and what was heard of the store meanwhile. -/
structure Exchange where
  call : RangeCall
  answer : RangeAnswer
  hearings : List Hearing

namespace Exchange

/-- The window that a range is pinned to after an exchange, given the one before. -/
def pinned (window : Int × Int) (x : Exchange) : Int × Int :=
  match x.call, x.answer with
  | .pin .seek offset, .pinned (.ok _) => (offset, window.2)
  | .pin .limit offset, .pinned (.ok _) => (window.1, offset)
  | _, _ => window

/-- The bytes that were handed out: those at the front of the buffer, as many as are reported. -/
def delivered (x : Exchange) : ByteArray :=
  match x.answer with
  | .filled (.ok (.bytes n, buffer)) => buffer.extract 0 n.toNat
  | _ => .empty

/-- Whether the caller was told that the range has ended. -/
def TellsEnd (x : Exchange) : Prop := ∃ buffer, x.answer = .filled (.ok (.endOfStream, buffer))

instance : DecidablePred TellsEnd
  | ⟨_, .filled (.ok (.endOfStream, buffer)), _⟩ => isTrue ⟨buffer, rfl⟩
  | ⟨_, .filled (.ok (.bytes _, _)), _⟩ => isFalse fun ⟨_, h⟩ => nomatch h
  | ⟨_, .filled (.error _), _⟩ => isFalse fun ⟨_, h⟩ => nomatch h
  | ⟨_, .pinned _, _⟩ => isFalse fun ⟨_, h⟩ => nomatch h
  | ⟨_, .closed, _⟩ => isFalse fun ⟨_, h⟩ => nomatch h

end Exchange

/-! ## Stories -/

/-- The exchanges with a range since it was opened. -/
abbrev Story := List Exchange

namespace Story

/-- The window that a range is pinned to, if it was opened from `start` to `stop`. -/
def window (start stop : Int) (story : Story) : Int × Int := story.foldl Exchange.pinned (start, stop)

def IsClosed (story : Story) : Prop := ∃ x ∈ story, x.call = .close

def hearings (story : Story) : List Hearing := story.flatMap Exchange.hearings

/-- The windows that a request was granted for. -/
def grants (story : Story) : List (Int × Int) := story.hearings.filterMap Hearing.grant?

/-- The bytes of all chunks that arrived. -/
def response (story : Story) : ByteArray := Store.joined (story.hearings.map Hearing.bytes)

/-- The bytes that were handed out. -/
def delivered (story : Story) : ByteArray := Store.joined (story.map Exchange.delivered)

/-- Whether the range told its end once a request had been granted, be it by the same call. -/
def ToldEnd (story : Story) : Prop :=
  ∃ before x after, story = before ++ x :: after ∧ x.TellsEnd ∧ grants (before ++ [x]) ≠ []

instance (call : RangeCall) : Decidable (call = .close) :=
  match call with
  | .close => .isTrue rfl
  | .pin _ _ => .isFalse nofun
  | .readInto _ => .isFalse nofun

instance (story : Story) : Decidable story.IsClosed := inferInstanceAs (Decidable (∃ x ∈ story, x.call = .close))

/-- The exchange in which a range told its end has a place in the story. -/
theorem toldEnd_iff_exists_lt (story : Story) :
    story.ToldEnd ↔ ∃ i : Fin story.length, story[i].TellsEnd ∧ grants (story.take (i + 1)) ≠ [] := by
  constructor
  · rintro ⟨before, x, after, rfl, htells, hgrants⟩
    have hfront : (before ++ x :: after).take (before.length + 1) = before ++ [x] := by
      rw [List.take_length_add_append, List.take_one, List.head?_cons, Option.toList_some]
    exact ⟨⟨before.length, by simp⟩, by simpa using htells, by rwa [hfront]⟩
  · rintro ⟨i, htells, hgrants⟩
    refine ⟨story.take i, story[i], story.drop (i + 1), ?_, htells, ?_⟩
    · rw [Fin.getElem_fin, ← List.drop_eq_getElem_cons, List.take_append_drop]
    · rwa [Fin.getElem_fin, List.take_append_getElem]

instance (story : Story) : Decidable story.ToldEnd := decidable_of_iff' _ (toldEnd_iff_exists_lt story)

variable {start stop : Int} (story : Story) (x : Exchange)

@[simp] theorem window_snoc : window start stop (story ++ [x]) = x.pinned (story.window start stop) := by
  simp [window]

@[simp] theorem isClosed_snoc : IsClosed (story ++ [x]) ↔ story.IsClosed ∨ x.call = .close := by
  simp [IsClosed, or_and_right, exists_or]

@[simp] theorem hearings_snoc : hearings (story ++ [x]) = story.hearings ++ x.hearings := by
  simp [hearings]

@[simp] theorem delivered_snoc : delivered (story ++ [x]) = story.delivered ++ x.delivered := by
  simp [delivered, Store.joined_append]

theorem toldEnd_snoc :
    ToldEnd (story ++ [x]) ↔ story.ToldEnd ∨ x.TellsEnd ∧ grants (story ++ [x]) ≠ [] := by
  constructor
  · rintro ⟨before, y, after, hstory, htells, hgrants⟩
    rcases List.eq_nil_or_concat after with rfl | ⟨after, z, rfl⟩
    · obtain ⟨rfl, hy⟩ := List.append_inj' hstory rfl
      obtain rfl : x = y := by simpa using hy
      exact .inr ⟨htells, hgrants⟩
    · rw [List.concat_eq_append, ← List.cons_append, ← List.append_assoc] at hstory
      obtain ⟨rfl, -⟩ := List.append_inj' hstory rfl
      exact .inl ⟨before, y, after, rfl, htells, hgrants⟩
  · rintro (⟨before, y, after, rfl, htells, hgrants⟩ | ⟨htells, hgrants⟩)
    · refine ⟨before, y, after ++ [x], ?_, htells, hgrants⟩
      rw [List.append_assoc, List.cons_append]
    · exact ⟨story, x, [], rfl, htells, hgrants⟩

end Story

namespace Store

/-- Makes a call of a range and listens to the store. -/
def exchange (store : Store σ C) (call : RangeCall) (r : StoreRange C) (s : σ) : Exchange × StoreRange C × σ :=
  let (answer, r, heard) := store.heard.callRange call r { behind := s }
  (⟨call, answer, heard.hearings⟩, r, heard.behind)

/-- Makes calls of a range, one after the other. -/
def story (store : Store σ C) : List RangeCall → StoreRange C → σ → Story × StoreRange C × σ
  | [], r, s => ([], r, s)
  | call :: calls, r, s =>
    let (x, r, s) := store.exchange call r s
    let (xs, r, s) := store.story calls r s
    (x :: xs, r, s)

/-! ## Listening changes nothing -/

variable (store : Store σ C)

theorem heard_request_behind (r : StoreRange C) (s : Heard σ) :
    (store.heard.request r s).1 = (store.request r s.behind).1 ∧
      (store.heard.request r s).2.behind = (store.request r s.behind).2 := by
  unfold request
  split
  · exact ⟨rfl, rfl⟩
  · exact ⟨rfl, rfl⟩

theorem heard_next (stream : C) (s : Heard σ) :
    store.heard.next stream s = ((store.next stream s.behind).1, (store.next stream s.behind).2.1,
      ⟨(store.next stream s.behind).2.2, s.hearings ++ [.pulled (store.next stream s.behind).1]⟩) :=
  rfl

theorem heard_nextFilled_behind (count : Nat) (stream : C) (s : Heard σ) :
    store.nextFilled count stream s.behind = ((store.heard.nextFilled count stream s).1,
      (store.heard.nextFilled count stream s).2.1, (store.heard.nextFilled count stream s).2.2.behind) := by
  induction count generalizing stream s with
  | zero => rfl
  | succ count ih =>
    unfold nextFilled
    rw [heard_next]
    generalize store.next stream s.behind = answer
    obtain ⟨pull, stream', behind⟩ := answer
    cases pull with
    | failed e => rfl
    | ended => rfl
    | chunk bytes =>
      dsimp only
      by_cases hempty : bytes.size = 0
      · rw [if_pos hempty, if_pos hempty]
        exact ih stream' ⟨behind, s.hearings ++ [.pulled (.chunk bytes)]⟩
      · rw [if_neg hempty, if_neg hempty]

theorem heard_readRange_behind (want : Nat) (r : StoreRange C) (s : Heard σ) :
    store.readRange want r s.behind = ((store.heard.readRange want r s).1,
      (store.heard.readRange want r s).2.1, (store.heard.readRange want r s).2.2.behind) := by
  obtain ⟨hanswer, hbehind⟩ := heard_request_behind store r s
  unfold readRange
  by_cases hclosed : r.closed
  · rw [if_pos hclosed, if_pos hclosed]
  rw [if_neg hclosed, if_neg hclosed]
  by_cases hwant : want = 0
  · rw [if_pos hwant, if_pos hwant]
  rw [if_neg hwant, if_neg hwant]
  by_cases hend : r.stop ≤ r.position
  · rw [if_pos hend, if_pos hend]
  rw [if_neg hend, if_neg hend]
  generalize store.heard.request r s = asked at hanswer hbehind ⊢
  generalize store.request r s.behind = answer at hanswer hbehind ⊢
  obtain ⟨_ | stream, s'⟩ := asked <;> obtain ⟨answer, behind⟩ := answer <;> dsimp only at hanswer hbehind <;>
    subst hanswer hbehind
  · rfl
  · dsimp only
    by_cases hpending : r.pending ≠ 0
    · rw [if_pos hpending, if_pos hpending]
    · have hpull := heard_nextFilled_behind store (store.chunksLeft stream + 1) stream s'
      have hleft : store.heard.chunksLeft stream = store.chunksLeft stream := rfl
      rw [if_neg hpending, if_neg hpending, hleft, hpull]
      generalize store.heard.nextFilled (store.chunksLeft stream + 1) stream s' = pulled
      obtain ⟨pull, stream', s''⟩ := pulled
      cases pull <;> rfl

/-- An exchange is the call as it is made where nobody listens. -/
theorem callRange_exchange (call : RangeCall) (r : StoreRange C) (s : σ) :
    store.callRange call r s = ((store.exchange call r s).1.answer, (store.exchange call r s).2) := by
  cases call with
  | pin pin offset => rfl
  | readInto buffer =>
    have hread := heard_readRange_behind store buffer.size r { behind := s }
    unfold exchange callRange
    dsimp only at hread ⊢
    rw [hread]
  | close => rfl

/-- What every exchange keeps, a whole story keeps. -/
theorem story_keeps {P : Story → StoreRange C → Prop}
    (hstep : ∀ story r s call, P story r → P (story ++ [(store.exchange call r s).1]) (store.exchange call r s).2.1)
    (calls : List RangeCall) {before : Story} {r : StoreRange C} (s : σ) (h : P before r) :
    P (before ++ (store.story calls r s).1) (store.story calls r s).2.1 := by
  induction calls generalizing before r s with
  | nil =>
    rw [story, List.append_nil]
    exact h
  | cons call calls ih =>
    have hrest := ih (store.exchange call r s).2.2 (hstep before r s call h)
    rw [List.append_assoc, List.singleton_append] at hrest
    exact hrest

end Store

end RangeRead
