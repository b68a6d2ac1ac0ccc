import RangeRead.Proofs.Channel.Course
import RangeRead.Proofs.Channel.Placed
import RangeRead.Proofs.Store.Refinement
import RangeRead.Proofs.Store.Standing
import RangeRead.Proofs.Transport.Listing

/-!
# The requests of a channel

A range that has just been opened has made no request; the read that follows makes it, unless the range is empty, and no
other read makes one (`ReadsRange.requests`). Between the operations of a channel its requests are therefore those for
the ranges that it opened and that are not empty (`Books`, `books_invariant`).

A channel that is opened at a path asks for the object once, if no handle is given, and from then on for ranges of that
path within the object, of the version that the object has (`requests_pinned`).
-/

namespace RangeRead

variable {σ C H ρ : Type}

namespace Store

variable {store : Store σ C} {o : ObjectHandle}

/-! ## What is requested -/

/-- The request of a range, which is made only if it has not been made before. -/
theorem logged_request {r : StoreRange C} {s s' : Asked σ} {a : Except ReadError C}
    (h : store.logged.request r s = (a, s')) :
    (r.stream = none → s'.requests = s.requests ++ [.get r.object.path r.start r.stop r.object.version]) ∧
      (r.stream ≠ none → s'.requests = s.requests) := by
  unfold request at h
  split at h
  · rename_i hstream
    cases h
    refine ⟨fun hnone => ?_, fun _ => rfl⟩
    rw [hstream] at hnone
    cases hnone
  · rename_i hstream
    cases h
    exact ⟨fun _ => rfl, fun hsome => absurd hstream hsome⟩

/-- Chunks come without requests. -/
theorem logged_nextFilled (count : Nat) (stream : C) (s : Asked σ) :
    (store.logged.nextFilled count stream s).2.2.requests = s.requests := by
  induction count generalizing stream s with
  | zero => rfl
  | succ count ih =>
    unfold nextFilled
    split
    · rename_i hnext
      have hsame : (store.logged.next stream s).2.2.requests = s.requests := rfl
      rw [hnext] at hsame
      split
      · exact (ih _ _).trans hsame
      · exact hsame
    · rfl

/-- Whether nothing is left of a range for a request, which has been made or is for nothing. -/
def IsSpent (r : StoreRange C) : Prop := r.stream ≠ none ∨ r.stop ≤ r.position

/-- A read makes the request of its range if the range is new and not empty, and otherwise none. -/
theorem ReadsRange.requests {want : Nat} {r r' : StoreRange C} {s s' : Asked σ} {reply : Reply}
    (h : ReadsRange store.logged want r s reply r' s') (hwant : 0 < want) :
    (IsSpent r → s'.requests = s.requests) ∧
      (r.stream = none → r.closed = false → s'.requests =
        s.requests ++ if r.position < r.stop then [.get r.object.path r.start r.stop r.object.version] else []) ∧
      ((∀ e, reply ≠ .failed e) → IsSpent r') := by
  have hasked : ∀ {a s₁}, r.position < r.stop → store.logged.request r s = (a, s₁) →
      (IsSpent r → s₁.requests = s.requests) ∧ (r.stream = none → r.closed = false → s₁.requests =
        s.requests ++ if r.position < r.stop then [.get r.object.path r.start r.stop r.object.version] else []) := by
    intro a s₁ hlt hrequest
    obtain ⟨hnew, hmade⟩ := logged_request hrequest
    refine ⟨fun hspent => ?_, fun hstream _ => ?_⟩
    · rcases hspent with hstream | hend
      · exact hmade hstream
      · omega
    · rw [if_pos hlt]
      exact hnew hstream
  have hnext : ∀ {count stream s₁ pull stream' s₂},
      store.logged.nextFilled count stream s₁ = (pull, stream', s₂) → s₂.requests = s₁.requests := by
    intro count stream s₁ pull stream' s₂ hnext
    have hsame := @logged_nextFilled _ _ store count stream s₁
    rwa [hnext] at hsame
  cases h with
  | closed hclosed =>
    refine ⟨fun _ => rfl, fun _ hopen => ?_, fun hreply => absurd rfl (hreply _)⟩
    rw [hclosed] at hopen
    cases hopen
  | nothing hnone => omega
  | atEnd hend =>
    refine ⟨fun _ => rfl, fun _ _ => ?_, fun _ => .inr hend⟩
    rw [if_neg (by omega), List.append_nil]
  | refused hlt hrequest =>
    exact ⟨(hasked hlt hrequest).1, (hasked hlt hrequest).2, fun hreply => absurd rfl (hreply _)⟩
  | pending hlt hrequest =>
    exact ⟨(hasked hlt hrequest).1, (hasked hlt hrequest).2, fun _ => .inl (by simp [handOut])⟩
  | notSent hlt hrequest hpull =>
    rw [hnext hpull]
    exact ⟨(hasked hlt hrequest).1, (hasked hlt hrequest).2, fun hreply => absurd rfl (hreply _)⟩
  | ended hlt hrequest hpull =>
    rw [hnext hpull]
    exact ⟨(hasked hlt hrequest).1, (hasked hlt hrequest).2, fun _ => .inl (by simp)⟩
  | sent hlt hrequest hpull =>
    rw [hnext hpull]
    exact ⟨(hasked hlt hrequest).1, (hasked hlt hrequest).2, fun _ => .inl (by simp [handOut])⟩

/-! ## Opening ranges -/

/-- A range is opened without a request and is pinned to its window, unless that ends before it begins. -/
theorem listing_openPinned (store : Store σ C) (o : ObjectHandle) (start stop : Int) (s : Listed σ) :
    store.transport.listing.openPinned o start stop s =
      if 0 ≤ start ∧ start ≤ stop then
        (.ok { object := o, start := start, stop := stop, position := start },
          ⟨store.note (.opened start stop o) s.behind, s.windows ++ [(start, stop)]⟩)
      else (.error (.notOpened start stop o (.invalidRange start stop)), s) := by
  unfold Transport.openPinned Transport.pinBoth
  by_cases h : 0 ≤ start ∧ start ≤ stop
  · rw [if_pos h]
    simp only [Transport.listing, Transport.within, transport, openRange, if_pos h, pinRange]
  · rw [if_neg h]
    simp only [Transport.listing, Transport.within, transport, openRange, if_neg h]

/-! ## Books -/

/-- The requests for the windows that are not empty. -/
def gets (o : ObjectHandle) (windows : List (Int × Int)) : List Request :=
  (windows.filter fun window => window.1 < window.2).map fun window => .get o.path window.1 window.2 o.version

theorem gets_snoc (o : ObjectHandle) (windows : List (Int × Int)) (start stop : Int) :
    gets o (windows ++ [(start, stop)]) =
      gets o windows ++ if start < stop then [.get o.path start stop o.version] else [] := by
  unfold gets
  rw [List.filter_append, List.map_append]
  by_cases h : start < stop <;> simp [h]

/-- What the requests so far, after those `before`, are for. -/
structure Books (o : ObjectHandle) (before : List Request) (p : Channel.Phase (Listed (Asked σ)) (StoreRange C)) :
    Prop where
  object : p.channel.object = o
  /-- The requests are those for the ranges that were opened, and the open range needs no other. -/
  balanced : p.fresh = false → p.state.behind.requests = before ++ gets o p.state.windows ∧
    ∀ r, p.channel.range = some r → IsSpent r.handle
  /-- The request for a range that was just opened is still to come. -/
  due : p.fresh = true → ∃ r windows start stop, p.channel.range = some r ∧
    r.handle = { object := o, start := start, stop := stop, position := start } ∧
    p.state.windows = windows ++ [(start, stop)] ∧ p.state.behind.requests = before ++ gets o windows

variable {before : List Request}

/-- A channel without a range has its books balanced if the requests are those for the ranges that were opened. -/
theorem Books.of_none {c : Channel (StoreRange C)} {s : Listed (Asked σ)} (hobject : c.object = o)
    (hr : c.range = none) (hrequests : s.behind.requests = before ++ gets o s.windows) :
    Books o before ⟨false, c, s⟩ where
  object := hobject
  balanced _ := ⟨hrequests, fun r hsome => by rw [hr] at hsome; cases hsome⟩
  due hfresh := by cases hfresh

/-- With a range they are balanced if moreover that range needs no other request. -/
theorem Books.of_some {c : Channel (StoreRange C)} {s : Listed (Asked σ)} {r : OpenRange (StoreRange C)}
    (hobject : c.object = o) (hr : c.range = some r) (hrequests : s.behind.requests = before ++ gets o s.windows)
    (hspent : IsSpent r.handle) : Books o before ⟨false, c, s⟩ where
  object := hobject
  balanced _ := by
    refine ⟨hrequests, fun r' hr' => ?_⟩
    rw [hr] at hr'
    cases hr'
    exact hspent
  due hfresh := by cases hfresh

/-- The read of the open range balances the books. -/
theorem Books.read {fresh : Bool} {c : Channel (StoreRange C)} {s s' : Listed (Asked σ)} {r : OpenRange (StoreRange C)}
    {want : Nat} {reply : Reply} {h : StoreRange C} (hbooks : Books o before ⟨fresh, c, s⟩) (hr : c.range = some r)
    (hwant : 0 < want) (hread : store.logged.transport.listing.read want r.handle s = (reply, h, s')) :
    s'.behind.requests = before ++ gets o s'.windows ∧ ((∀ e, reply ≠ .failed e) → IsSpent h) := by
  obtain ⟨hbehind, hwindows⟩ := Transport.listing_read hread
  obtain ⟨hspent, hnew, hleft⟩ := (ReadsRange.of_eq hbehind).requests hwant
  refine ⟨?_, hleft⟩
  cases fresh with
  | false =>
    obtain ⟨hrequests, hmade⟩ := hbooks.balanced rfl
    rw [hspent (hmade r hr), hwindows]
    exact hrequests
  | true =>
    obtain ⟨r', windows, start, stop, hr', hhandle, hlisted, hrequests⟩ := hbooks.due rfl
    have hsame : r' = r := Option.some.inj (hr'.symm.trans hr)
    rw [hsame] at hhandle
    rw [hhandle] at hnew
    dsimp only at hlisted hrequests
    rw [hnew rfl rfl, hwindows, hlisted, hrequests, gets_snoc, List.append_assoc]

/-- Every action keeps the books. -/
theorem Books.acts {p q : Channel.Phase (Listed (Asked σ)) (StoreRange C)} (hbooks : Books o before p)
    (h : Channel.Acts store.logged.transport.listing p q) : Books o before q := by
  have hobject := hbooks.object
  cases h with
  | notes notice => exact ⟨hobject, hbooks.balanced, hbooks.due⟩
  | @refused c s need e s' hr hopen =>
    rw [listing_openPinned] at hopen
    split at hopen
    · cases hopen
    · cases hopen
      have hnone : ({ c with sizing := c.nextSizing need } : Channel (StoreRange C)).range = none := hr
      exact .of_none hobject hnone (hbooks.balanced rfl).1
  | @opens c s need h s' hr hopen =>
    rw [listing_openPinned] at hopen
    split at hopen
    · cases hopen
      refine ⟨hobject, nofun, fun _ => ⟨_, s.windows, _, _, rfl, ?_, rfl, (hbooks.balanced rfl).1⟩⟩
      rw [← hobject]
    · cases hopen
  | fails hr hwant hread => exact .of_none hobject rfl (hbooks.read hr hwant hread).1
  | ends hr hwant hread =>
    obtain ⟨hrequests, hspent⟩ := hbooks.read hr hwant hread
    exact .of_some hobject rfl hrequests (hspent nofun)
  | skips hr _ hwant hread =>
    obtain ⟨hrequests, hspent⟩ := hbooks.read hr hwant hread
    exact .of_some hobject rfl hrequests (hspent nofun)
  | delivers hr hwant hread =>
    obtain ⟨hrequests, hspent⟩ := hbooks.read hr hwant hread
    exact .of_some hobject rfl hrequests (hspent nofun)
  | drops hr => exact .of_none hobject rfl (hbooks.balanced rfl).1
  | leaves hr => exact .of_none hobject rfl (hbooks.balanced rfl).1

/-- Every operation keeps the books. -/
theorem books_invariant (store : Store σ C) (o : ObjectHandle) (before : List Request) :
    Channel.Invariant store.logged.transport.listing fun c s => Books o before ⟨false, c, s⟩ :=
  Channel.Invariant.of_acts (fun hbooks h => hbooks.acts h)
    (fun _ hbooks _ => ⟨hbooks.object, hbooks.balanced, hbooks.due⟩)
    (fun hbooks _ => ⟨hbooks.object, hbooks.balanced, hbooks.due⟩)

/-! ## Channels by path -/

/-- The requests of a channel on `o` that was opened at a path, with a handle if one was given. -/
structure Pinned (path : String) (given : Option ObjectHandle) (o : ObjectHandle) (s : Listed (Asked σ)) : Prop where
  path_eq : o.path = path
  given_eq : ∀ object, given = some object → object = o
  /-- The object is asked for once, before all else, if no handle is given. One for one and in order, what follows are
  the ranges that were opened and that are not empty. -/
  requests : s.behind.requests = (if given.isNone then [.head path] else []) ++ gets o s.windows
  /-- All of these are ranges of the path, of the version that the object has, and within the object. -/
  ranges : ∀ (path' : String) (start stop : Int) version, .get path' start stop version ∈ s.behind.requests →
    path' = path ∧ version = o.version ∧ 0 ≤ start ∧ start < stop ∧ stop ≤ o.size

/-- Asking for an object is one request, and the handle that is made is for its path. -/
theorem logged_pin {path : String} {s s' : Asked σ} {object : ObjectHandle}
    (h : store.logged.pin path none s = (.ok object, s')) :
    object.path = path ∧ s'.requests = s.requests ++ [.head path] := by
  have hrequests : (store.logged.head path s).2.requests = s.requests ++ [.head path] := rfl
  unfold pin at h
  split at h
  · cases h
  · rename_i hhead
    rw [hhead] at hrequests
    split at h
    · cases h
    · unfold ObjectHandle.create at h
      split at h
      · cases h
      · cases h
        exact ⟨rfl, hrequests⟩

/-- Opening a channel at a path asks for the object there, unless a handle for it is given. -/
theorem openChannel_requests {path : String} {given : Option ObjectHandle} {options : Option ReadOptions}
    {s s' : Asked σ} {c : Channel (StoreRange C)} (h : store.logged.openChannel path given options s = (.ok c, s')) :
    Channel.IsNew c ∧ c.object.path = path ∧ (∀ object, given = some object → object = c.object) ∧
      s'.requests = s.requests ++ if given.isNone then [.head path] else [] := by
  unfold openChannel at h
  split at h
  · cases h
  · rename_i found s₁ hresolve
    have hopen : Channel.openRead (some found) options = .ok c := congrArg Prod.fst h
    have hstate : s₁ = s' := congrArg Prod.snd h
    obtain ⟨hnew, hobject⟩ := Channel.openRead_isNew hopen
    rw [hobject, ← hstate]
    refine ⟨hnew, ?_⟩
    unfold resolve at hresolve
    cases given with
    | none =>
      obtain ⟨hpath, hrequests⟩ := logged_pin hresolve
      exact ⟨hpath, nofun, hrequests⟩
    | some object =>
      dsimp only at hresolve
      split at hresolve
      · rename_i hpath
        cases hresolve
        refine ⟨hpath, fun object' hsome => (Option.some.inj hsome).symm, ?_⟩
        simp
      · cases hresolve

/-- The ranges that are asked for are ranges that were opened. -/
theorem mem_gets {windows : List (Int × Int)} {path : String} {start stop : Int} {version : Option String}
    (h : .get path start stop version ∈ gets o windows) :
    (start, stop) ∈ windows ∧ start < stop ∧ path = o.path ∧ version = o.version := by
  unfold gets at h
  obtain ⟨window, hmem, heq⟩ := List.mem_map.mp h
  obtain ⟨hopened, hlt⟩ := List.mem_filter.mp hmem
  cases heq
  exact ⟨hopened, by simpa using hlt, rfl, rfl⟩

/-- **The requests of a channel are pinned**, whatever the store answers. -/
theorem requests_pinned {recorder : Option (Recorder ρ)} {memory : Nat} {path : String} {given : Option ObjectHandle}
    {options : Option ReadOptions} {s₀ : σ} {s₁ : Asked σ} {c : Channel (StoreRange C)}
    (hopen : store.logged.openChannel path given options (.start s₀) = (.ok c, s₁)) (n : Nat)
    (operations : List Operation) (r : ρ) :
    Pinned path given c.object
      (c.run ⟨store.logged.transport.listing, recorder, memory⟩ n operations ⟨.start s₁, r⟩).2.2.transport := by
  obtain ⟨hnew, hpath, hgiven, hbefore⟩ := openChannel_requests hopen
  have hreached : Channel.Reached ⟨store.logged.transport.listing, recorder, memory⟩ c.object ⟨.start s₁, r⟩ _ _ :=
    (Channel.Reached.new hnew rfl).run n operations
  generalize c.run ⟨store.logged.transport.listing, recorder, memory⟩ n operations ⟨.start s₁, r⟩ = after at hreached ⊢
  obtain ⟨answers, c', s', r'⟩ := after
  have hbooks : Books c.object s₁.requests ⟨false, c', s'⟩ :=
    (books_invariant store c.object s₁.requests).reached
      (fun _ hnew₀ ho => .of_none ho hnew₀.range (List.append_nil _).symm) hreached
  have hidle : ((standing (Asked σ) C).listing.and (Listed.KeepsWithin c.object)).idle (.start s₁) := ⟨trivial, nofun⟩
  have ht := (transport_honest store.logged c.object).listing.and
    (Transport.listing_keepsWithin store.logged.transport c.object)
  have hplaced : Channel.Placed _ c.object c' s' :=
    (Channel.placed_invariant ht).reached (fun _ hnew₀ ho => hnew₀.placed ho hidle) hreached
  obtain ⟨-, hwindows⟩ := View.holds_and hplaced.holds
  have hrequests : s'.behind.requests = (if given.isNone then [.head path] else []) ++ gets c.object s'.windows := by
    rw [(hbooks.balanced rfl).1, hbefore]
    rfl
  refine ⟨hpath, hgiven, hrequests, fun path' start stop version hmem => ?_⟩
  rw [hrequests, List.mem_append] at hmem
  rcases hmem with hhead | hget
  · split at hhead <;> simp at hhead
  · obtain ⟨hopened, hlt, rfl, rfl⟩ := mem_gets hget
    have hw : c.object.Window start stop := hwindows _ hopened
    exact ⟨hpath, rfl, hw.nonneg, hlt, hw.le_size⟩

/-- So it is for an object in memory that is opened by its path, read, and read again at its end, where a range is
opened that nothing is requested for. -/
theorem requests_pinned_memory :
    let object : ObjectHandle := { path := "object", size := 5 }
    let src : Source (Listed (Asked Memory.Objects)) (StoreRange Memory.Stream) Unit :=
      ⟨(Memory.store 2).logged.transport.listing, none, 8⟩
    let s₁ : Asked Memory.Objects := ⟨[("object", ⟨#[1, 2, 3, 4, 5]⟩)], [.head "object"]⟩
    let after := (Channel.adaptive object .standard).run src 9 [.read (some 2), .seek 0 2, .readInto ⟨#[0]⟩]
      ⟨.start s₁, ()⟩
    (Memory.store 2).logged.openChannel "object" none none (.start [("object", ⟨#[1, 2, 3, 4, 5]⟩)]) =
        (.ok (.adaptive object .standard), s₁) ∧
      after.2.2.transport.behind.requests = [.head "object", .get "object" 0 5 none] ∧
      after.2.2.transport.windows = [(0, 5), (5, 5)] ∧ Pinned "object" none object after.2.2.transport := by
  have hopen : (Memory.store 2).logged.openChannel "object" none none (.start [("object", ⟨#[1, 2, 3, 4, 5]⟩)]) =
      (.ok (.adaptive { path := "object", size := 5 } .standard),
        ⟨[("object", ⟨#[1, 2, 3, 4, 5]⟩)], [.head "object"]⟩) := rfl
  exact ⟨hopen, by decide +kernel, by decide +kernel, requests_pinned hopen 9 _ ()⟩

end Store

end RangeRead
