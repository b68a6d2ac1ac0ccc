import RangeRead.Proofs.Store.Standing
import RangeRead.Proofs.Store.Story

/-!
# Ranges under way

What was heard of the store and what a range has delivered keep books of the range (`Underway`): what was delivered and
what is pending is all that arrived, and a request was granted, for the window, if and only if there is a stream. Reads
keep them (`Underway.read`), and make their requests for the window of the range (`ReadsRange.asks`).

Where streams stay ended (`StaysEnded`), a range that tells its end after its request has nothing more to deliver, and
tells the end whenever it is read again (`ReadsRange.exhausted`, `IsExhausted.read`).
-/

namespace RangeRead.Store

variable {σ C : Type} {store : Store σ C}

/-! ## What is heard meanwhile -/

/-- A request is heard when it is made. -/
theorem heard_request {r : StoreRange C} {s s' : Heard σ} {a : Except ReadError C}
    (h : store.heard.request r s = (a, s')) :
    (r.stream = none → s'.hearings =
      s.hearings ++ [.asked r.object.path r.start r.stop r.object.version a.isOk]) ∧
    ∀ stream, r.stream = some stream → a = .ok stream ∧ s'.hearings = s.hearings := by
  unfold request at h
  split at h
  · rename_i stream hstream
    cases h
    refine ⟨fun hnone => ?_, fun stream' hsome => ?_⟩
    · rw [hstream] at hnone
      cases hnone
    · rw [hstream] at hsome
      cases hsome
      exact ⟨rfl, rfl⟩
  · rename_i hstream
    cases h
    refine ⟨fun _ => rfl, fun stream' hsome => ?_⟩
    rw [hstream] at hsome
    cases hsome

/-- While a chunk that is not empty is looked for only chunks are pulled, and its bytes are all that arrives. -/
theorem heard_nextFilled {count : Nat} {stream stream' : C} {s s' : Heard σ} {pull : Pull}
    (h : store.heard.nextFilled count stream s = (pull, stream', s')) :
    ∃ pulls : List Pull, s'.hearings = s.hearings ++ pulls.map .pulled ∧
      joined (pulls.map Pull.bytes) = pull.bytes ∧ ∀ bytes, pull = .chunk bytes → 0 < bytes.size := by
  induction count generalizing stream s with
  | zero =>
    cases h
    exact ⟨[], by simp, rfl, fun _ hbytes => by cases hbytes⟩
  | succ count ih =>
    unfold nextFilled at h
    rw [heard_next] at h
    generalize store.next stream s.behind = answer at h
    obtain ⟨first, stream₁, behind⟩ := answer
    cases first with
    | failed e =>
      cases h
      exact ⟨[.failed e], rfl, rfl, fun _ hbytes => by cases hbytes⟩
    | ended =>
      cases h
      exact ⟨[.ended], rfl, rfl, fun _ hbytes => by cases hbytes⟩
    | chunk bytes =>
      dsimp only at h
      split at h
      · rename_i hempty
        obtain ⟨pulls, hpulls, hjoined, hsome⟩ := ih h
        refine ⟨.chunk bytes :: pulls, ?_, ?_, hsome⟩
        · rw [hpulls, List.append_assoc, List.map_cons, List.singleton_append]
        · have hnone : bytes = .empty := ByteArray.size_eq_zero_iff.mp hempty
          rw [List.map_cons, joined, hjoined, Pull.bytes, hnone, ByteArray.empty_append]
      · rename_i hsome
        cases h
        refine ⟨[.chunk bytes], rfl, joined_singleton bytes, fun bytes' hbytes => ?_⟩
        cases hbytes
        exact Nat.pos_of_ne_zero hsome

/-! ## The books of a range -/

/-- The books of a range that is open and pinned to the window `w`, of whose store `heard` was heard and which has
delivered the bytes `handed`: what was delivered and what is pending is all that arrived. -/
structure Underway (w : Int × Int) (heard : List Hearing) (handed : ByteArray) (r : StoreRange C) : Prop where
  window : w = (r.start, r.stop)
  position : r.position = r.start + handed.size
  stock : handed ++ pendingBytes r = joined (heard.map Hearing.bytes)
  made : r.stream ≠ none → heard.filterMap Hearing.grant? = [w] ∧ r.position ≤ r.stop
  unmade : r.stream = none → heard.filterMap Hearing.grant? = [] ∧ joined (heard.map Hearing.bytes) = .empty

section

variable {w : Int × Int} {heard earlier : List Hearing} {handed : ByteArray} {r : StoreRange C} {s s' : Heard σ}

/-- Before its request a range has delivered nothing and nothing is pending. -/
theorem Underway.fresh (h : Underway w heard handed r) (hstream : r.stream = none) :
    handed = .empty ∧ r.pending = 0 ∧ r.position = r.start := by
  have hsizes := congrArg ByteArray.size (h.stock.trans (h.unmade hstream).2)
  rw [ByteArray.size_append, pendingBytes_size] at hsizes
  change handed.size + r.pending = 0 at hsizes
  have hhanded : handed.size = 0 := by omega
  refine ⟨ByteArray.size_eq_zero_iff.mp hhanded, by omega, ?_⟩
  rw [h.position, hhanded]
  exact Int.add_zero _

/-- What was delivered, and as much of what is pending as the window has room for, is what arrived up to the length of
the window. -/
theorem Underway.truncated (h : Underway w heard handed r) (hstream : r.stream ≠ none) :
    handed ++ (pendingBytes r).extract 0 ((w.2 - w.1).toNat - handed.size) =
      (joined (heard.map Hearing.bytes)).extract 0 (w.2 - w.1).toNat := by
  obtain ⟨-, hle⟩ := h.made hstream
  have hposition := h.position
  have hlength : handed.size ≤ (w.2 - w.1).toNat := by
    rw [h.window]
    omega
  rw [← h.stock, ByteArray.extract_append, extract_of_size_le 0 hlength, ByteArray.extract_zero_size, Nat.zero_sub]

/-- A request is for the window, and is made by a range that has none yet. -/
theorem Underway.requested {stream : C} (h : Underway w (earlier ++ s.hearings) handed r)
    (hlt : r.position < r.stop) (hrequest : store.heard.request r s = (.ok stream, s')) :
    Underway w (earlier ++ s'.hearings) handed { r with stream := some stream } := by
  obtain ⟨hnew, hold⟩ := heard_request hrequest
  cases hstream : r.stream with
  | none =>
    obtain ⟨hgrants, hjoined⟩ := h.unmade hstream
    rw [hnew hstream, ← List.append_assoc]
    refine ⟨h.window, h.position, ?_, fun _ => ⟨?_, Int.le_of_lt hlt⟩, nofun⟩
    · rw [List.map_append, joined_append, ← h.stock]
      exact ByteArray.append_empty.symm
    · rw [List.filterMap_append, hgrants, h.window]
      rfl
  | some stream' =>
    obtain ⟨-, hheard⟩ := hold stream' hstream
    have hsome : r.stream ≠ none := by simp [hstream]
    rw [hheard]
    exact ⟨h.window, h.position, h.stock, fun _ => h.made hsome, nofun⟩

theorem Underway.refused {e : ReadError} (h : Underway w (earlier ++ s.hearings) handed r)
    (hrequest : store.heard.request r s = (.error e, s')) : Underway w (earlier ++ s'.hearings) handed r := by
  obtain ⟨hnew, hold⟩ := heard_request hrequest
  cases hstream : r.stream with
  | none =>
    obtain ⟨hgrants, hjoined⟩ := h.unmade hstream
    have hnothing : joined ((earlier ++ s'.hearings).map Hearing.bytes) =
        joined ((earlier ++ s.hearings).map Hearing.bytes) := by
      rw [hnew hstream, ← List.append_assoc, List.map_append, joined_append]
      exact ByteArray.append_empty
    refine ⟨h.window, h.position, h.stock.trans hnothing.symm, fun hsome => absurd hstream hsome, fun _ => ⟨?_, ?_⟩⟩
    · rw [hnew hstream, ← List.append_assoc, List.filterMap_append, hgrants]
      rfl
    · rw [hnothing, hjoined]
  | some stream' => cases (hold stream' hstream).1

/-- What arrives is put in stock, where nothing was pending. -/
theorem Underway.pulled {count : Nat} {stream stream' : C} {pull : Pull} {chunk : ByteArray} {taken : Nat}
    (h : Underway w (earlier ++ s.hearings) handed { r with stream := some stream }) (hpending : r.pending = 0)
    (hnext : store.heard.nextFilled count stream s = (pull, stream', s'))
    (hchunk : pendingBytes { r with chunk := chunk, taken := taken } = pull.bytes) :
    Underway w (earlier ++ s'.hearings) handed { r with stream := some stream', chunk := chunk, taken := taken } := by
  obtain ⟨pulls, hpulls, hjoined, -⟩ := heard_nextFilled hnext
  obtain ⟨hgrants, hle⟩ := h.made nofun
  have hnone : pendingBytes r = .empty := ByteArray.size_eq_zero_iff.mp ((pendingBytes_size r).trans hpending)
  have hstock : handed ++ pendingBytes r = joined ((earlier ++ s.hearings).map Hearing.bytes) := h.stock
  rw [hpulls, ← List.append_assoc]
  refine ⟨h.window, h.position, ?_, fun _ => ⟨?_, hle⟩, nofun⟩
  · rw [hnone, ByteArray.append_empty] at hstock
    change handed ++ pendingBytes { r with chunk := chunk, taken := taken } = _
    rw [List.map_append, joined_append, ← hstock, hchunk, ← hjoined, List.map_map]
    rfl
  · rw [List.filterMap_append, hgrants, List.filterMap_map]
    have hquiet : pulls.filterMap (Hearing.grant? ∘ .pulled) = [] := List.filterMap_eq_nil_iff.mpr fun _ _ => rfl
    rw [hquiet, List.append_nil]

/-- What is handed out is taken from the front of the stock. -/
theorem Underway.handsOut {want : Nat} (h : Underway w heard handed r) (hstream : r.stream ≠ none)
    (hpending : r.pending ≠ 0) (hlt : r.position < r.stop) (hwant : 0 < want) :
    ∃ bytes : ByteArray, (handOut want r).1 = .delivered bytes 0 ∧ 0 < bytes.size ∧ bytes.size ≤ want ∧
      bytes.size ≤ r.stop - r.position ∧ Underway w heard (handed ++ bytes) (handOut want r).2 := by
  generalize hn : min (min want r.pending) (r.stop - r.position).toNat = n
  have hpart : n ≤ r.pending := by omega
  have hbytes : r.chunk.extract r.taken (r.taken + n) = (pendingBytes r).extract 0 n := by
    unfold pendingBytes
    unfold StoreRange.pending at hpart hpending
    rw [extract_extract_to (by omega)]
  have hsize : (r.chunk.extract r.taken (r.taken + n)).size = n := by
    rw [hbytes, ByteArray.size_extract, pendingBytes_size]
    omega
  refine ⟨r.chunk.extract r.taken (r.taken + n), ?_, by omega, by omega, by omega, ?_⟩
  · unfold handOut
    rw [hn]
  · obtain ⟨hgrants, hle⟩ := h.made hstream
    unfold handOut
    rw [hn]
    refine ⟨h.window, ?_, ?_, fun _ => ⟨hgrants, ?_⟩, fun hnone => absurd hnone hstream⟩
    · dsimp only
      rw [ByteArray.size_append, hsize, h.position]
      omega
    · have hrest : pendingBytes { r with position := r.position + n, taken := r.taken + n } =
          (pendingBytes r).extract n (pendingBytes r).size := (extract_extract_from _ _ _ _).symm
      have hsplit : (pendingBytes r).extract 0 n ++ (pendingBytes r).extract n (pendingBytes r).size =
          pendingBytes r := by
        rw [ByteArray.extract_append_extract, Nat.min_eq_left (by omega), Nat.max_eq_right, ByteArray.extract_zero_size]
        rw [pendingBytes_size]
        exact hpart
      rw [hbytes, hrest, ByteArray.append_assoc, hsplit]
      exact h.stock
    · dsimp only
      omega

/-- How a read into a buffer that is not empty is answered by an open range: it fails, tells the end, or delivers some
bytes, no more than the buffer has room for and than are left of the window. -/
inductive Hands (room : Nat) (left : Int) : ByteArray → Reply → Prop
  | failed (e : ReadError) : Hands room left .empty (.failed e)
  | ended : Hands room left .empty (.endOfStream .empty)
  | delivered {bytes : ByteArray} (hsome : 0 < bytes.size) (hroom : bytes.size ≤ room) (hleft : bytes.size ≤ left) :
    Hands room left bytes (.delivered bytes 0)

/-- A read keeps the books. -/
theorem Underway.read {want : Nat} {reply : Reply} {r' : StoreRange C} (h : Underway w (earlier ++ s.hearings) handed r)
    (hread : ReadsRange store.heard want r s reply r' s') (hwant : 0 < want) :
    ∃ bytes, Hands want (r.stop - r.position) bytes reply ∧
      Underway w (earlier ++ s'.hearings) (handed ++ bytes) r' := by
  cases hread with
  | closed => exact ⟨.empty, .failed _, by rwa [ByteArray.append_empty]⟩
  | nothing hnone => omega
  | atEnd => exact ⟨.empty, .ended, by rwa [ByteArray.append_empty]⟩
  | refused hlt hrequest => exact ⟨.empty, .failed _, by rw [ByteArray.append_empty]; exact h.refused hrequest⟩
  | pending hlt hrequest hpending =>
    obtain ⟨bytes, hreply, hsome, hroom, hleft, hafter⟩ :=
      (h.requested hlt hrequest).handsOut nofun hpending hlt hwant
    rw [hreply]
    exact ⟨bytes, .delivered hsome hroom hleft, hafter⟩
  | notSent hlt hrequest hnext hpending =>
    have hnone : pendingBytes r = .empty := ByteArray.size_eq_zero_iff.mp ((pendingBytes_size r).trans hpending)
    refine ⟨.empty, .failed _, ?_⟩
    rw [ByteArray.append_empty]
    exact (h.requested hlt hrequest).pulled hpending hnext hnone
  | ended hlt hrequest hnext hpending =>
    have hnone : pendingBytes r = .empty := ByteArray.size_eq_zero_iff.mp ((pendingBytes_size r).trans hpending)
    refine ⟨.empty, .ended, ?_⟩
    rw [ByteArray.append_empty]
    exact (h.requested hlt hrequest).pulled hpending hnext hnone
  | @sent stream s₁ chunk stream' _ hlt hrequest hnext hpending =>
    obtain ⟨-, -, -, hsome⟩ := heard_nextFilled hnext
    have hchunk : pendingBytes { r with chunk := chunk, taken := 0 } = chunk := ByteArray.extract_zero_size
    have hstock : (StoreRange.pending { r with stream := some stream', chunk := chunk, taken := 0 }) ≠ 0 :=
      Nat.ne_of_gt (hsome chunk rfl)
    obtain ⟨bytes, hreply, hsome, hroom, hleft, hafter⟩ :=
      ((h.requested hlt hrequest).pulled hpending hnext hchunk).handsOut nofun hstock hlt hwant
    rw [hreply]
    exact ⟨bytes, .delivered hsome hroom hleft, hafter⟩

/-- A request is made by a range that has none yet and is not empty, for the window that the range is pinned to. -/
theorem ReadsRange.asks {want : Nat} {reply : Reply} {r' : StoreRange C}
    (h : ReadsRange store.heard want r s reply r' s') (hs : s.hearings = [])
    {path : String} {start stop : Int} {version : Option String} {granted : Bool}
    (hasked : .asked path start stop version granted ∈ s'.hearings) :
    path = r.object.path ∧ version = r.object.version ∧ (start, stop) = (r.start, r.stop) ∧ r.stream = none ∧
      r.position < r.stop := by
  have hmade : ∀ {a s₁}, r.position < r.stop → store.heard.request r s = (a, s₁) →
      .asked path start stop version granted ∈ s₁.hearings →
      path = r.object.path ∧ version = r.object.version ∧ (start, stop) = (r.start, r.stop) ∧ r.stream = none ∧
        r.position < r.stop := by
    intro a s₁ hlt hrequest hmem
    obtain ⟨hnew, hold⟩ := heard_request hrequest
    cases hstream : r.stream with
    | none =>
      rw [hnew hstream, hs, List.nil_append, List.mem_singleton] at hmem
      cases hmem
      exact ⟨rfl, rfl, rfl, rfl, hlt⟩
    | some stream =>
      rw [(hold stream hstream).2, hs] at hmem
      cases hmem
  have hpulled : ∀ {count stream s₁ pull stream' s₂}, store.heard.nextFilled count stream s₁ = (pull, stream', s₂) →
      .asked path start stop version granted ∈ s₂.hearings → .asked path start stop version granted ∈ s₁.hearings := by
    intro count stream s₁ pull stream' s₂ hnext hmem
    obtain ⟨pulls, hpulls, -⟩ := heard_nextFilled hnext
    rw [hpulls, List.mem_append] at hmem
    rcases hmem with hmem | hmem
    · exact hmem
    · obtain ⟨pull', -, hpull⟩ := List.mem_map.mp hmem
      cases hpull
  have hnothing : ¬ .asked path start stop version granted ∈ s.hearings := by simp [hs]
  cases h with
  | closed => exact absurd hasked hnothing
  | nothing => exact absurd hasked hnothing
  | atEnd => exact absurd hasked hnothing
  | refused hlt hrequest => exact hmade hlt hrequest hasked
  | pending hlt hrequest => exact hmade hlt hrequest hasked
  | notSent hlt hrequest hnext => exact hmade hlt hrequest (hpulled hnext hasked)
  | ended hlt hrequest hnext => exact hmade hlt hrequest (hpulled hnext hasked)
  | sent hlt hrequest hnext => exact hmade hlt hrequest (hpulled hnext hasked)

end

theorem ReadsRange.same {want : Nat} {r r' : StoreRange C} {s s' : σ} {reply : Reply}
    (h : ReadsRange store want r s reply r' s') :
    r'.object = r.object ∧ r'.closed = r.closed ∧ r'.start = r.start ∧ r'.stop = r.stop := by
  cases h <;> exact ⟨rfl, rfl, rfl, rfl⟩

/-! ## The end of a stream -/

/-- Streams stay ended: one that has ended is spent, and has ended whenever it is asked again. -/
structure StaysEnded (store : Store σ C) (spent : C → Prop) : Prop where
  ended : ∀ {stream stream' : C} {s s' : σ}, store.next stream s = (.ended, stream', s') → spent stream'
  stays : ∀ {stream : C} (s : σ), spent stream → ∃ stream' s', store.next stream s = (.ended, stream', s')

theorem StaysEnded.heard {spent : C → Prop} (h : store.StaysEnded spent) : store.heard.StaysEnded spent where
  ended {stream stream' s s'} hnext := by
    rw [heard_next] at hnext
    have hpull : (store.next stream s.behind).1 = .ended := congrArg Prod.fst hnext
    have hstream : (store.next stream s.behind).2.1 = stream' := congrArg (fun answer => answer.2.1) hnext
    exact h.ended (Prod.ext hpull (Prod.ext hstream rfl))
  stays {stream} s hspent := by
    obtain ⟨stream', s', hnext⟩ := h.stays s.behind hspent
    rw [heard_next, hnext]
    exact ⟨_, _, rfl⟩

/-- With more tries than chunks are left the end is found only where the stream has ended. -/
theorem nextFilled_ended {count : Nat} {stream stream' : C} {s s' : σ} (hcount : store.chunksLeft stream < count)
    (h : store.nextFilled count stream s = (.ended, stream', s')) :
    ∃ stream₁ s₁, store.next stream₁ s₁ = (.ended, stream', s') := by
  induction count generalizing stream s with
  | zero => omega
  | succ count ih =>
    unfold nextFilled at h
    cases hnext : store.next stream s with
    | mk pull rest =>
      obtain ⟨stream₁, s₁⟩ := rest
      rw [hnext] at h
      cases pull with
      | failed e => cases h
      | ended =>
        cases h
        exact ⟨stream, s, hnext⟩
      | chunk bytes =>
        dsimp only at h
        split at h
        · have hlt := store.chunksLeft_lt hnext
          exact ih (by omega) h
        · cases h

/-- Whether a range has nothing more to deliver: it stands at its end, or its stream is over and nothing is pending. -/
def IsExhausted (spent : C → Prop) (r : StoreRange C) : Prop :=
  ∃ stream, r.stream = some stream ∧ (r.stop ≤ r.position ∨ r.pending = 0 ∧ spent stream)

variable {spent : C → Prop} {want : Nat} {r r' : StoreRange C} {s s' : σ} {reply : Reply}

/-- A range that has made its request tells the end only if it is exhausted. -/
theorem ReadsRange.exhausted (hends : store.StaysEnded spent) (h : ReadsRange store want r s reply r' s')
    {bytes : ByteArray} (hreply : reply = .endOfStream bytes) (hstream : r'.stream ≠ none) : IsExhausted spent r' := by
  cases h with
  | closed => cases hreply
  | nothing => cases hreply
  | atEnd hend =>
    obtain ⟨stream, hsome⟩ := Option.ne_none_iff_exists'.mp hstream
    exact ⟨stream, hsome, .inl hend⟩
  | refused => cases hreply
  | pending => cases hreply
  | notSent => cases hreply
  | @ended stream s₁ stream' _ hlt hrequest hnext hpending =>
    obtain ⟨stream₁, s₂, hended⟩ := nextFilled_ended (Nat.lt_succ_self _) hnext
    exact ⟨stream', rfl, .inr ⟨hpending, hends.ended hended⟩⟩
  | sent => cases hreply

/-- An exhausted range tells the end, again and again. -/
theorem IsExhausted.read (hends : store.StaysEnded spent) (hexhausted : IsExhausted spent r) (hopen : r.closed = false)
    (hwant : 0 < want) (s : σ) :
    ∃ r' s', store.readRange want r s = (.endOfStream .empty, r', s') ∧ IsExhausted spent r' := by
  have hnotClosed : ¬ r.closed = true := by simp [hopen]
  unfold readRange
  rw [if_neg hnotClosed, if_neg (Nat.ne_of_gt hwant)]
  by_cases hend : r.stop ≤ r.position
  · rw [if_pos hend]
    exact ⟨r, s, rfl, hexhausted⟩
  · rw [if_neg hend]
    obtain ⟨stream, hstream, hle | ⟨hpending, hspent⟩⟩ := hexhausted
    · exact absurd hle hend
    · obtain ⟨stream', s', hnext⟩ := hends.stays s hspent
      have hrequest : store.request r s = (.ok stream, s) := by
        unfold request
        rw [hstream]
      have hfilled : store.nextFilled (store.chunksLeft stream + 1) stream s = (.ended, stream', s') := by
        unfold nextFilled
        rw [hnext]
      rw [hrequest]
      dsimp only
      rw [if_neg (not_not_intro hpending), hfilled]
      exact ⟨_, _, rfl, stream', rfl, .inr ⟨hpending, hends.ended hnext⟩⟩

end RangeRead.Store
