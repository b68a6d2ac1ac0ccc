import RangeRead.Proofs.Bytes
import RangeRead.Proofs.Transport.Honest
import RangeRead.Store.Range

/-!
# Stores that serve an object

A store serves an object if every request for a part of it is answered by a stream whose chunks, of any sizes, begin
with the bytes of that part (`Store.Serves`). The transport over such a store is reliable (`Store.transport_reliable`):
what is pending of the latest chunk of a range and what is still to come begin with the bytes of the range from its
position on (`Store.Stocked`), and every read that is not at the end finds some of them.
-/

namespace RangeRead.Store

variable {σ C : Type} {store : Store σ C} {I : σ → Prop}

/-! ## Streams -/

/-- The bytes of chunks in a row. -/
def joined : List ByteArray → ByteArray
  | [] => .empty
  | chunk :: chunks => chunk ++ joined chunks

theorem joined_append (chunks chunks' : List ByteArray) :
    joined (chunks ++ chunks') = joined chunks ++ joined chunks' := by
  induction chunks with
  | nil => exact ByteArray.empty_append.symm
  | cons chunk chunks ih =>
    rw [List.cons_append, joined, joined, ih, ByteArray.append_assoc]

@[simp] theorem joined_singleton (chunk : ByteArray) : joined [chunk] = chunk := ByteArray.append_empty

/-- In any state with the property `I`, which it keeps, a stream sends these chunks first. -/
def Sends (store : Store σ C) (I : σ → Prop) : List ByteArray → C → Prop
  | [], _ => True
  | chunk :: chunks, stream => ∀ s, I s →
    ∃ stream' s', store.next stream s = (.chunk chunk, stream', s') ∧ I s' ∧ Sends store I chunks stream'

/-- A store whose states have the property `I` serves an object: a request for a part of it that is not empty is
answered by finitely many chunks that begin with the bytes of that part. -/
structure Serves (store : Store σ C) (o : ObjectHandle) (data : ByteArray) (I : σ → Prop) : Prop where
  note : ∀ {s} (notice : Notice), I s → I (store.note notice s)
  head : ∀ {s} (path : String), I s → I (store.head path s).2
  get : ∀ {s start stop}, I s → o.Window start stop → start < stop → ∃ stream s' chunks extra,
    store.get o.path start stop o.version s = (.ok stream, s') ∧ I s' ∧ Sends store I chunks stream ∧
      joined chunks = data.extract start.toNat stop.toNat ++ extra

/-- A stream has as many chunks left as it sends. -/
theorem Sends.length_le {chunks : List ByteArray} {stream : C} {s : σ} (h : Sends store I chunks stream) (hs : I s) :
    chunks.length ≤ store.chunksLeft stream := by
  induction chunks generalizing stream s with
  | nil => exact Nat.zero_le _
  | cons chunk chunks ih =>
    obtain ⟨stream', s', hnext, hs', hrest⟩ := h s hs
    have hlt := store.chunksLeft_lt hnext
    have hle := ih hrest hs'
    rw [List.length_cons]
    omega

/-- Where bytes are left to be sent the next chunk that is not empty is found, and the bytes go on behind it. -/
theorem nextFilled_sends {chunks : List ByteArray} {stream : C} {s : σ} {count : Nat}
    (h : Sends store I chunks stream) (hs : I s) (hsome : 0 < (joined chunks).size) (hcount : chunks.length ≤ count) :
    ∃ bytes rest stream' s', store.nextFilled count stream s = (.chunk bytes, stream', s') ∧ 0 < bytes.size ∧ I s' ∧
      Sends store I rest stream' ∧ bytes ++ joined rest = joined chunks := by
  induction chunks generalizing stream s count with
  | nil => exact absurd hsome (Nat.lt_irrefl 0)
  | cons chunk chunks ih =>
    obtain ⟨stream', s', hnext, hs', hrest⟩ := h s hs
    cases count with
    | zero => exact absurd hcount (Nat.not_succ_le_zero _)
    | succ count =>
      unfold nextFilled
      rw [hnext]
      dsimp only
      by_cases hempty : chunk.size = 0
      · rw [if_pos hempty]
        have hnone : chunk = .empty := ByteArray.size_eq_zero_iff.mp hempty
        have hjoined : joined (chunk :: chunks) = joined chunks := by
          show chunk ++ joined chunks = joined chunks
          rw [hnone, ByteArray.empty_append]
        rw [hjoined] at hsome ⊢
        exact ih hrest hs' hsome (Nat.le_of_succ_le_succ hcount)
      · rw [if_neg hempty]
        exact ⟨chunk, chunks, stream', s', rfl, Nat.pos_of_ne_zero hempty, hs', hrest, rfl⟩

/-! ## Ranges -/

/-- The bytes of the latest chunk that have not been handed out. -/
def pendingBytes (r : StoreRange C) : ByteArray := r.chunk.extract r.taken r.chunk.size

theorem pendingBytes_size (r : StoreRange C) : (pendingBytes r).size = r.pending := by
  unfold pendingBytes StoreRange.pending
  rw [ByteArray.size_extract, Nat.min_self]

/-- What a range has in stock begins with its bytes, from its position on; before the request it has nothing. -/
def Stocked (store : Store σ C) (data : ByteArray) (I : σ → Prop) (r : StoreRange C) : Prop :=
  match r.stream with
  | none => r.start = r.position ∧ r.pending = 0
  | some stream => ∃ chunks extra, Sends store I chunks stream ∧
    pendingBytes r ++ joined chunks = data.extract r.position.toNat r.stop.toNat ++ extra

theorem stocked_of_none {data : ByteArray} {r : StoreRange C} (h : r.stream = none) :
    Stocked store data I r ↔ r.start = r.position ∧ r.pending = 0 := by
  unfold Stocked
  rw [h]

/-- An open range of a store stands at its position. -/
def view (store : Store σ C) (o : ObjectHandle) (data : ByteArray) (I : σ → Prop) : View σ (StoreRange C) where
  idle := I
  stands r cursor stop s :=
    I s ∧ r.object = o ∧ r.closed = false ∧ r.position = cursor ∧ r.stop = stop ∧ Stocked store data I r

variable {o : ObjectHandle} {data : ByteArray}

/-- The request of a range brings what the range has in stock. -/
theorem request_stocked (hserves : store.Serves o data I) {r : StoreRange C} {s : σ} (hs : I s) (hobject : r.object = o)
    (hstocked : Stocked store data I r) (hw : o.Window r.position r.stop) (hlt : r.position < r.stop) :
    ∃ stream s' chunks extra, store.request r s = (.ok stream, s') ∧ I s' ∧ Sends store I chunks stream ∧
      pendingBytes r ++ joined chunks = data.extract r.position.toNat r.stop.toNat ++ extra := by
  unfold request
  unfold Stocked at hstocked
  split at hstocked
  · rename_i hstream
    obtain ⟨hstart, hpending⟩ := hstocked
    obtain ⟨stream, s', chunks, extra, hget, hs', hsends, hjoined⟩ := hserves.get (hserves.note _ hs) hw hlt
    rw [hstream, hobject, hstart, hget]
    have hnone : pendingBytes r = .empty := ByteArray.size_eq_zero_iff.mp ((pendingBytes_size r).trans hpending)
    refine ⟨stream, s', chunks, extra, rfl, hs', hsends, ?_⟩
    rw [hnone, ByteArray.empty_append]
    exact hjoined
  · rename_i stream hstream
    obtain ⟨chunks, extra, hsends, hjoined⟩ := hstocked
    rw [hstream]
    exact ⟨stream, s, chunks, extra, rfl, hs, hsends, hjoined⟩

/-- Handing out pending bytes takes them from the front of the stock. -/
theorem handOut_stocked {r : StoreRange C} {want : Nat} {stream : C} {chunks : List ByteArray} {extra : ByteArray}
    (hsize : data.size = o.size) (hstream : r.stream = some stream) (hsends : Sends store I chunks stream)
    (hjoined : pendingBytes r ++ joined chunks = data.extract r.position.toNat r.stop.toNat ++ extra)
    (hpending : 0 < r.pending) (hw : o.Window r.position r.stop) (hlt : r.position < r.stop) (hwant : 0 < want) :
    ∃ n, 0 < n ∧ n ≤ want ∧ r.position + n ≤ r.stop ∧
      handOut want r = (.delivered (data.extract r.position.toNat (r.position.toNat + n)) 0,
        { r with position := r.position + n, taken := r.taken + n }) ∧
      Stocked store data I { r with position := r.position + n, taken := r.taken + n } := by
  obtain ⟨h0, hle, hstop⟩ := hw
  refine ⟨min (min want r.pending) (r.stop - r.position).toNat, by omega, by omega, by omega, ?_⟩
  generalize hn : min (min want r.pending) (r.stop - r.position).toNat = n
  have hpart : n ≤ (data.extract r.position.toNat r.stop.toNat).size := by
    rw [ByteArray.size_extract]
    omega
  have hfront : n ≤ (pendingBytes r).size := by
    rw [pendingBytes_size]
    omega
  obtain ⟨hsame, hrest⟩ := split_append hjoined hfront hpart
  refine ⟨?_, ?_⟩
  · have hchunk : r.taken + n ≤ r.chunk.size := by
      unfold StoreRange.pending at hpending hn
      omega
    have hbytes : r.chunk.extract r.taken (r.taken + n) = data.extract r.position.toNat (r.position.toNat + n) := by
      unfold pendingBytes at hsame
      rwa [extract_extract_to hchunk, extract_extract_to (by omega)] at hsame
    unfold handOut
    rw [hn]
    dsimp only
    rw [hbytes]
  · unfold Stocked
    dsimp only
    rw [hstream]
    refine ⟨chunks, extra, hsends, ?_⟩
    unfold pendingBytes at hrest ⊢
    have hposition : (r.position + n).toNat = r.position.toNat + n := by omega
    rw [extract_extract_from, extract_extract_from] at hrest
    rw [hposition]
    exact hrest

/-- How a range that stands in a window answers a read: not at all if nothing is wanted, with the end at the end, and
anywhere else with some of its next bytes. -/
theorem readRange_stands (hserves : store.Serves o data I) (hsize : data.size = o.size) {r : StoreRange C} {s : σ}
    {cursor stop : Int} (hs : (view store o data I).stands r cursor stop s) (hw : o.Window cursor stop) (want : Nat) :
    (want = 0 ∧ store.readRange want r s = (.delivered .empty 0, r, s)) ∨
    (0 < want ∧ cursor = stop ∧ store.readRange want r s = (.endOfStream .empty, r, s)) ∨
    (0 < want ∧ cursor < stop ∧ ∃ n r' s', 0 < n ∧ n ≤ want ∧ cursor + n ≤ stop ∧
      store.readRange want r s = (.delivered (data.extract cursor.toNat (cursor.toNat + n)) 0, r', s') ∧
      (view store o data I).stands r' (cursor + n) stop s') := by
  obtain ⟨hi, hobject, hclosed, rfl, rfl, hstocked⟩ := hs
  have hle := hw.le
  unfold readRange
  rw [if_neg (by simp [hclosed])]
  by_cases hwant : want = 0
  · rw [if_pos hwant]
    exact .inl ⟨hwant, rfl⟩
  rw [if_neg hwant]
  have hpos : 0 < want := Nat.pos_of_ne_zero hwant
  by_cases hend : r.stop ≤ r.position
  · rw [if_pos hend]
    exact .inr (.inl ⟨hpos, by omega, rfl⟩)
  rw [if_neg hend]
  have hlt : r.position < r.stop := Int.not_le.mp hend
  refine .inr (.inr ⟨hpos, hlt, ?_⟩)
  obtain ⟨stream, s', chunks, extra, hrequest, hi', hsends, hjoined⟩ :=
    request_stocked hserves hi hobject hstocked hw hlt
  rw [hrequest]
  dsimp only
  by_cases hpending : r.pending = 0
  · rw [if_neg (not_not_intro hpending)]
    have hnone : pendingBytes r = .empty := ByteArray.size_eq_zero_iff.mp ((pendingBytes_size r).trans hpending)
    rw [hnone, ByteArray.empty_append] at hjoined
    have hsome : 0 < (joined chunks).size := by
      have hstop := hw.le_size
      have h0 := hw.nonneg
      rw [hjoined, ByteArray.size_append, ByteArray.size_extract]
      omega
    have hcount := hsends.length_le hi'
    obtain ⟨bytes, rest, stream', s'', hnext, hbytes, hi'', hrest, hjoined'⟩ :=
      nextFilled_sends hsends hi' hsome (Nat.le_succ_of_le hcount)
    rw [hnext]
    dsimp only
    have hall : bytes.extract 0 bytes.size ++ joined rest = data.extract r.position.toNat r.stop.toNat ++ extra := by
      rw [ByteArray.extract_zero_size, hjoined', hjoined]
    obtain ⟨n, hn, hnwant, hnstop, hhand, hstocked'⟩ := handOut_stocked
      (r := { r with stream := some stream', chunk := bytes, taken := 0 }) hsize rfl hrest hall hbytes hw hlt hpos
    rw [hhand]
    exact ⟨n, _, s'', hn, hnwant, hnstop, rfl, hi'', hobject, hclosed, rfl, rfl, hstocked'⟩
  · rw [if_pos hpending]
    obtain ⟨n, hn, hnwant, hnstop, hhand, hstocked'⟩ := handOut_stocked
      (r := { r with stream := some stream }) hsize rfl hsends hjoined (Nat.pos_of_ne_zero hpending) hw hlt hpos
    rw [hhand]
    exact ⟨n, _, s', hn, hnwant, hnstop, rfl, hi', hobject, hclosed, rfl, rfl, hstocked'⟩

/-- What a read delivers are the next bytes, within what is wanted and the range. -/
theorem readRange_delivered (hserves : store.Serves o data I) (hsize : data.size = o.size) {r r' : StoreRange C}
    {s s' : σ} {cursor stop : Int} {want : Nat} {bytes : ByteArray} {excess : Int}
    (hs : (view store o data I).stands r cursor stop s) (hw : o.Window cursor stop)
    (h : store.readRange want r s = (.delivered bytes excess, r', s')) :
    excess = 0 ∧ bytes = data.extract cursor.toNat (cursor.toNat + bytes.size) ∧ bytes.size ≤ want ∧
      cursor + bytes.size ≤ stop ∧ (view store o data I).stands r' (cursor + bytes.size) stop s' := by
  obtain ⟨h0, hle, hstop⟩ := hw
  rcases readRange_stands hserves hsize hs ⟨h0, hle, hstop⟩ want with
    ⟨-, hr⟩ | ⟨-, -, hr⟩ | ⟨-, -, n, r₁, s₁, hn, hnwant, hnstop, hr, hs₁⟩
  · rw [hr] at h
    cases h
    have hnothing : cursor + (ByteArray.empty.size : Int) = cursor := Int.add_zero cursor
    rw [hnothing]
    exact ⟨rfl, ByteArray.extract_same.symm, Nat.zero_le _, hle, hs⟩
  · rw [hr] at h
    cases h
  · rw [hr] at h
    cases h
    have hcount : (data.extract cursor.toNat (cursor.toNat + n)).size = n := by
      rw [ByteArray.size_extract]
      omega
    rw [hcount]
    exact ⟨rfl, rfl, hnwant, hnstop, hs₁⟩

/-- The end is told without a change. -/
theorem readRange_ended (hserves : store.Serves o data I) (hsize : data.size = o.size) {r r' : StoreRange C} {s s' : σ}
    {cursor stop : Int} {want : Nat} {bytes : ByteArray} (hs : (view store o data I).stands r cursor stop s)
    (hw : o.Window cursor stop) (h : store.readRange want r s = (.endOfStream bytes, r', s')) :
    bytes = .empty ∧ r' = r ∧ s' = s := by
  rcases readRange_stands hserves hsize hs hw want with ⟨-, hr⟩ | ⟨-, -, hr⟩ | ⟨-, -, n, r₁, s₁, -, -, -, hr, -⟩
  · rw [hr] at h
    cases h
  · rw [hr] at h
    cases h
    exact ⟨rfl, rfl, rfl⟩
  · rw [hr] at h
    cases h

/-! ## The transport -/

theorem openRange_window {start stop : Int} (hw : o.Window start stop) : (openRange o start stop :
    Except ReadError (StoreRange C)) = .ok { object := o, start := start, stop := stop, position := start } := by
  unfold openRange
  exact if_pos ⟨hw.nonneg, hw.le⟩

theorem transport_pin {pin : Pin} {offset : Int} {r r' : StoreRange C} {s s' : σ} {a : Except ReadError Unit}
    (h : store.transport.pin pin offset r s = (a, r', s')) : pinRange pin offset r = (a, r') ∧ s' = s := by
  simp only [transport, Prod.mk.injEq] at h
  exact ⟨Prod.ext h.1 h.2.1, h.2.2.symm⟩

theorem pinRange_seek_ok {offset : Int} {u : Unit} {r r' : StoreRange C} (h : pinRange .seek offset r = (.ok u, r')) :
    r.stream = none ∧ r' = { r with start := offset, position := offset } := by
  unfold pinRange at h
  split at h
  · cases h
  · rename_i hstream
    cases h
    exact ⟨hstream, rfl⟩

theorem pinRange_limit_ok {offset : Int} {u : Unit} {r r' : StoreRange C} (h : pinRange .limit offset r = (.ok u, r')) :
    r.stream = none ∧ r' = { r with stop := offset } := by
  unfold pinRange at h
  split at h
  · cases h
  · rename_i hstream
    cases h
    exact ⟨hstream, rfl⟩

/-- A range whose request has been made cannot be pinned, and stays as it is. -/
theorem pinRange_error {pin : Pin} {offset : Int} {e : ReadError} {r r' : StoreRange C}
    (h : pinRange pin offset r = (.error e, r')) : r' = r := by
  unfold pinRange at h
  split at h
  · cases h
    rfl
  · cases pin <;> cases h

/-- The transport over a store that serves an object is reliable. -/
theorem transport_reliable (hserves : store.Serves o data I) (hsize : data.size = o.size) :
    store.transport.Reliable o data (view store o data I) where
  note_idle notice hs := hserves.note notice hs
  note_stands notice hs := ⟨hserves.note notice hs.1, hs.2⟩
  opened {start stop s h s'} hs hw heq := by
    simp only [transport] at heq
    rw [openRange_window hw] at heq
    cases heq
    exact ⟨start, stop, hs, rfl, rfl, rfl, rfl, rfl, rfl⟩
  refused hs hw heq := by
    simp only [transport] at heq
    rw [openRange_window hw] at heq
    cases heq
  sought {h cursor stop s offset u h' s'} hs heq := by
    obtain ⟨hi, hobject, hclosed, -, hstop, hstocked⟩ := hs
    obtain ⟨hpin, rfl⟩ := transport_pin heq
    obtain ⟨hstream, rfl⟩ := pinRange_seek_ok hpin
    have hpending := ((stocked_of_none hstream).mp hstocked).2
    have hstocked' : Stocked store data I { h with start := offset, position := offset } := by
      refine (stocked_of_none ?_).mpr ⟨rfl, hpending⟩
      exact hstream
    exact ⟨hi, hobject, hclosed, rfl, hstop, hstocked'⟩
  limited {h cursor stop s offset u h' s'} hs heq := by
    obtain ⟨hi, hobject, hclosed, hposition, -, hstocked⟩ := hs
    obtain ⟨hpin, rfl⟩ := transport_pin heq
    obtain ⟨hstream, rfl⟩ := pinRange_limit_ok hpin
    have hbefore := (stocked_of_none hstream).mp hstocked
    have hstocked' : Stocked store data I { h with stop := offset } := by
      refine (stocked_of_none ?_).mpr hbefore
      exact hstream
    exact ⟨hi, hobject, hclosed, hposition, rfl, hstocked'⟩
  notPinned {h cursor stop s pin offset e h' s'} hs heq := by
    obtain ⟨hpin, rfl⟩ := transport_pin heq
    obtain rfl := pinRange_error hpin
    exact ⟨cursor, stop, hs⟩
  failed {h cursor stop s want e h' s'} hs hw heq := by
    have heq' : store.readRange want h s = (.failed e, h', s') := heq
    rcases readRange_stands hserves hsize hs hw want with ⟨-, hr⟩ | ⟨-, -, hr⟩ | ⟨-, -, n, r', s'', -, -, -, hr, -⟩ <;>
    · rw [hr] at heq'
      cases heq'
  ended hs hw heq := by
    obtain ⟨-, rfl, rfl⟩ := readRange_ended hserves hsize hs hw heq
    exact hs
  reports hs hw heq := by
    obtain ⟨rfl, -, hwant, hstop, -⟩ := readRange_delivered hserves hsize hs hw heq
    omega
  delivered hs hw heq := by
    obtain ⟨rfl, -, -, -, hs'⟩ := readRange_delivered hserves hsize hs hw heq
    rw [Int.add_zero]
    exact hs'
  close hs := hs.1
  writes hs hw heq := by
    obtain ⟨hexcess, hbytes, -⟩ := readRange_delivered hserves hsize hs hw heq
    exact ⟨hexcess, hbytes⟩
  writes_nothing hs hw heq := (readRange_ended hserves hsize hs hw heq).1
  opens {start stop s} hs hw := by
    refine ⟨{ object := o, start := start, stop := stop, position := start }, store.note (.opened start stop o) s, ?_⟩
    unfold Transport.openPinned
    simp only [transport]
    rw [openRange_window hw]
    rfl
  reads {h cursor stop s want} hs hw hlt hwant := by
    rcases readRange_stands hserves hsize hs hw want with
      ⟨hnone, -⟩ | ⟨-, hend, -⟩ | ⟨-, -, n, r', s', hn, -, hnstop, hr, -⟩
    · omega
    · omega
    · refine ⟨_, r', s', hr, ?_⟩
      have h0 := hw.nonneg
      have hle := hw.le_size
      rw [ByteArray.size_extract]
      omega
  ends {h stop s want} hs hw hwant := by
    rcases readRange_stands hserves hsize hs hw want with ⟨hnone, -⟩ | ⟨-, -, hr⟩ | ⟨-, hlt, -⟩
    · omega
    · exact ⟨h, s, hr⟩
    · omega

end RangeRead.Store
