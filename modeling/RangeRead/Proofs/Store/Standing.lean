import RangeRead.Proofs.Store.Served

/-!
# Ranges over any store

Whatever a store answers, a range stands at its position and hands out no bytes beyond its end: it makes its request,
or uses the one that it has made, and cuts what arrives to what is left of it (`ReadsRange`). So the transport over a
store is honest, even if requests and chunks fail, or bring fewer or more bytes than they should (`transport_honest`).
-/

namespace RangeRead.Store

variable {σ C : Type} {store : Store σ C} {o : ObjectHandle}

/-- `ReadsRange store want r s reply r' s'`: a read of the range `r` is replied to with `reply` and leaves `r'`. -/
inductive ReadsRange (store : Store σ C) (want : Nat) (r : StoreRange C) (s : σ) :
    Reply → StoreRange C → σ → Prop
  | closed (hclosed : r.closed = true) : ReadsRange store want r s (.failed .closedRange) r s
  | nothing (hwant : want = 0) : ReadsRange store want r s (.delivered .empty 0) r s
  | atEnd (hend : r.stop ≤ r.position) : ReadsRange store want r s (.endOfStream .empty) r s
  | refused {e s'} (hlt : r.position < r.stop) (hrequest : store.request r s = (.error e, s')) :
    ReadsRange store want r s (.failed e) r s'
  | pending {stream s'} (hlt : r.position < r.stop) (hrequest : store.request r s = (.ok stream, s'))
      (hpending : r.pending ≠ 0) : ReadsRange store want r s (handOut want { r with stream := some stream }).1
      (handOut want { r with stream := some stream }).2 s'
  | notSent {stream s' e stream' s''} (hlt : r.position < r.stop) (hrequest : store.request r s = (.ok stream, s'))
      (hnext : store.nextFilled (store.chunksLeft stream + 1) stream s' = (.failed e, stream', s''))
      (hpending : r.pending = 0) : ReadsRange store want r s (.failed e) { r with stream := some stream' } s''
  | ended {stream s' stream' s''} (hlt : r.position < r.stop) (hrequest : store.request r s = (.ok stream, s'))
      (hnext : store.nextFilled (store.chunksLeft stream + 1) stream s' = (.ended, stream', s''))
      (hpending : r.pending = 0) : ReadsRange store want r s (.endOfStream .empty) { r with stream := some stream' } s''
  | sent {stream s' bytes stream' s''} (hlt : r.position < r.stop) (hrequest : store.request r s = (.ok stream, s'))
      (hnext : store.nextFilled (store.chunksLeft stream + 1) stream s' = (.chunk bytes, stream', s''))
      (hpending : r.pending = 0) :
    ReadsRange store want r s (handOut want { r with stream := some stream', chunk := bytes, taken := 0 }).1
      (handOut want { r with stream := some stream', chunk := bytes, taken := 0 }).2 s''

/-- Every read of a range comes out as `ReadsRange` says. -/
theorem readsRange_readRange (want : Nat) (r : StoreRange C) (s : σ) :
    ReadsRange store want r s (store.readRange want r s).1 (store.readRange want r s).2.1
      (store.readRange want r s).2.2 := by
  unfold readRange
  split
  · rename_i hclosed; exact .closed hclosed
  · split
    · rename_i hwant; exact .nothing hwant
    · split
      · rename_i hend; exact .atEnd hend
      · rename_i hend
        have hlt : r.position < r.stop := Int.not_le.mp hend
        split
        · rename_i hrequest; exact .refused hlt hrequest
        · rename_i hrequest
          split
          · rename_i hpending; exact .pending hlt hrequest hpending
          · rename_i hpending
            have hnone : r.pending = 0 := Decidable.not_not.mp hpending
            split
            · rename_i hnext; exact .notSent hlt hrequest hnext hnone
            · rename_i hnext; exact .ended hlt hrequest hnext hnone
            · rename_i hnext; exact .sent hlt hrequest hnext hnone

theorem ReadsRange.of_eq {want : Nat} {r r' : StoreRange C} {s s' : σ} {reply : Reply}
    (h : store.transport.read want r s = (reply, r', s')) : ReadsRange store want r s reply r' s' := by
  have hread := @readsRange_readRange _ _ store want r s
  have heq : store.readRange want r s = (reply, r', s') := h
  rwa [heq] at hread

/-- What is handed out was wanted and is left of the range, which moves on by it. -/
theorem handOut_eq (want : Nat) (r : StoreRange C) :
    ∃ bytes taken,
      handOut want r = (.delivered bytes 0, { r with position := r.position + bytes.size, taken := taken }) ∧
      bytes.size ≤ want ∧ bytes.size ≤ (r.stop - r.position).toNat := by
  generalize hn : min (min want r.pending) (r.stop - r.position).toNat = n
  have hsize : (r.chunk.extract r.taken (r.taken + n)).size = n := by
    rw [ByteArray.size_extract]
    unfold StoreRange.pending at hn
    omega
  refine ⟨r.chunk.extract r.taken (r.taken + n), r.taken + n, ?_, by omega, by omega⟩
  unfold handOut
  rw [hn, hsize]

/-- What a read leaves: the range has the same end, and stands where what was delivered ends. -/
theorem ReadsRange.stands {want : Nat} {r r' : StoreRange C} {s s' : σ} {reply : Reply}
    (h : ReadsRange store want r s reply r' s') : r'.stop = r.stop ∧
      (∀ bytes, reply = .endOfStream bytes → r'.position = r.position) ∧
      ∀ bytes excess, reply = .delivered bytes excess → excess = 0 ∧ bytes.size ≤ want ∧
        (r.position ≤ r.stop → r.position + bytes.size ≤ r.stop) ∧ r'.position = r.position + bytes.size := by
  have hhanded : ∀ r₁ : StoreRange C, r₁.position = r.position → r₁.stop = r.stop →
      (handOut want r₁).2.stop = r.stop ∧ (∀ bytes, (handOut want r₁).1 = .endOfStream bytes →
        (handOut want r₁).2.position = r.position) ∧
      ∀ bytes excess, (handOut want r₁).1 = .delivered bytes excess → excess = 0 ∧ bytes.size ≤ want ∧
        (r.position ≤ r.stop → r.position + bytes.size ≤ r.stop) ∧
        (handOut want r₁).2.position = r.position + bytes.size := by
    intro r₁ hposition hstop
    obtain ⟨bytes, taken, hhand, hwant, hleft⟩ := handOut_eq want r₁
    rw [hhand, ← hposition, ← hstop]
    refine ⟨rfl, nofun, fun bytes' excess hreply => ?_⟩
    cases hreply
    exact ⟨rfl, hwant, fun hle => by omega, rfl⟩
  cases h with
  | closed => exact ⟨rfl, nofun, nofun⟩
  | nothing =>
    refine ⟨rfl, nofun, fun bytes excess hreply => ?_⟩
    cases hreply
    have hsame : r.position + (ByteArray.empty.size : Int) = r.position := Int.add_zero _
    rw [hsame]
    exact ⟨rfl, Nat.zero_le _, id, rfl⟩
  | atEnd => exact ⟨rfl, fun _ _ => rfl, nofun⟩
  | refused => exact ⟨rfl, nofun, nofun⟩
  | pending => exact hhanded _ rfl rfl
  | notSent => exact ⟨rfl, nofun, nofun⟩
  | ended => exact ⟨rfl, fun _ _ => rfl, nofun⟩
  | sent => exact hhanded _ rfl rfl

/-! ## The transport -/

/-- A range stands at its position, whatever the store has come to. -/
def standing (σ C : Type) : View σ (StoreRange C) where
  idle _ := True
  stands r cursor stop _ := r.position = cursor ∧ r.stop = stop

/-- The transport over any store is honest. -/
theorem transport_honest (store : Store σ C) (o : ObjectHandle) : store.transport.Honest o (standing σ C) where
  note_idle _ _ := trivial
  note_stands _ hs := hs
  opened {start stop s h s'} _ _ _ := ⟨h.position, h.stop, rfl, rfl⟩
  refused _ _ _ := trivial
  sought hs heq := by
    obtain ⟨hpin, -⟩ := transport_pin heq
    obtain ⟨-, rfl⟩ := pinRange_seek_ok hpin
    exact ⟨rfl, hs.2⟩
  limited hs heq := by
    obtain ⟨hpin, -⟩ := transport_pin heq
    obtain ⟨-, rfl⟩ := pinRange_limit_ok hpin
    exact ⟨hs.1, rfl⟩
  notPinned {h cursor stop s pin offset e h' s'} _ _ := ⟨h'.position, h'.stop, rfl, rfl⟩
  failed {h cursor stop s want e h' s'} _ _ _ := ⟨h'.position, h'.stop, rfl, rfl⟩
  ended hs _ heq := by
    obtain ⟨hstop, hended, -⟩ := (ReadsRange.of_eq heq).stands
    exact ⟨(hended _ rfl).trans hs.1, hstop.trans hs.2⟩
  reports {h cursor stop s want bytes excess h' s'} hs hw heq := by
    obtain ⟨rfl, rfl⟩ := hs
    obtain ⟨-, -, hdelivered⟩ := (ReadsRange.of_eq heq).stands
    obtain ⟨rfl, hwant, hleft, -⟩ := hdelivered _ _ rfl
    have hstop := hleft hw.le
    omega
  delivered hs _ heq := by
    obtain ⟨rfl, rfl⟩ := hs
    obtain ⟨hstop, -, hdelivered⟩ := (ReadsRange.of_eq heq).stands
    obtain ⟨rfl, -, -, hposition⟩ := hdelivered _ _ rfl
    rw [Int.add_zero]
    exact ⟨hposition, hstop⟩
  close _ := trivial

/-- No read of a range reports more than was wanted. -/
theorem transport_counts (store : Store σ C) : store.transport.Counts := by
  intro want h s bytes excess h' s' heq
  obtain ⟨-, -, hdelivered⟩ := (ReadsRange.of_eq heq).stands
  obtain ⟨rfl, hwant, -, -⟩ := hdelivered bytes excess rfl
  omega

end RangeRead.Store
