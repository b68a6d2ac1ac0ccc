import RangeRead.Proofs.Atomicity

/-!
# How a read comes out

A read delivers nothing and changes nothing, or it is a delivery that fails, or one whose size is told to the recorder,
who may refuse it (`ReadsTo`, `perform_readsTo`).
-/

namespace RangeRead.Channel

variable {σ H ρ : Type} {src : Source σ H ρ} {n : Nat}

/-- How many bytes an operation on a channel wants: none if it does not read. -/
def wants (operation : Operation) (c : Channel H) : Nat :=
  match operation with
  | .read k => (c.asked k).toNat
  | .readAll => (c.asked none).toNat
  | .readInto buffer => buffer.size
  | .seek _ _ | .tell | .close => 0

/-- `ReadsTo src n want c w a c' w'`: a read of `want` bytes answers `a` and leaves `c'` and `w'`. -/
inductive ReadsTo {α : Type} (src : Source σ H ρ) (n want : Nat) (c : Channel H) (w : World σ ρ) :
    Outcome ReadError α → Channel H → World σ ρ → Prop
  /-- The channel is closed, or no bytes are wanted, or there is no memory for them. -/
  | nothing {a} (hends : a ≠ .stalled) : ReadsTo src n want c w a c w
  | fails {gap e c' s'} (hwant : 0 < want)
      (hdeliver : deliver src.transport n want gap c w.transport = (.failed e, c', s')) :
      ReadsTo src n want c w (.failed e) c' { w with transport := s' }
  | stalls {gap c' s'} (hwant : 0 < want)
      (hdeliver : deliver src.transport n want gap c w.transport = (.stalled, c', s')) :
      ReadsTo src n want c w .stalled c' { w with transport := s' }
  | delivers {gap got c' s' r x} (hwant : 0 < want)
      (hdeliver : deliver src.transport n want gap c w.transport = (.done got, c', s'))
      (hreport : report src got w.recorder = (.done got, r)) : ReadsTo src n want c w (.done x) c' ⟨s', r⟩
  /-- The bytes are there, but the recorder refuses. -/
  | refused {gap got e c' s' r} (hwant : 0 < want)
      (hdeliver : deliver src.transport n want gap c w.transport = (.done got, c', s'))
      (hreport : report src got w.recorder = (.failed e, r)) : ReadsTo src n want c w (.failed e) c' ⟨s', r⟩

variable {α β : Type} {want : Nat} {c c' : Channel H} {w w' : World σ ρ}

/-- What is made of the bytes makes no difference. -/
theorem ReadsTo.map {a : Outcome ReadError α} (h : ReadsTo src n want c w a c' w') (f : α → β) :
    ReadsTo src n want c w (a.map f) c' w' := by
  cases h with
  | nothing hends =>
    apply ReadsTo.nothing
    intro hmap
    cases a with
    | stalled => exact hends rfl
    | done x => cases hmap
    | failed e => cases hmap
  | fails hwant hdeliver => exact .fails hwant hdeliver
  | stalls hwant hdeliver => exact .stalls hwant hdeliver
  | delivers hwant hdeliver hreport => exact .delivers hwant hdeliver hreport
  | refused hwant hdeliver hreport => exact .refused hwant hdeliver hreport

/-- The recorder refuses what was delivered, or says nothing about it. -/
theorem report_eq (src : Source σ H ρ) (got : Filling) (r : ρ) :
    (report src got r).1 = .done got ∨ ∃ e, (report src got r).1 = .failed e := by
  unfold report
  split
  · exact .inl rfl
  · split
    · exact .inl rfl
    · split
      · exact .inl rfl
      · exact .inr ⟨_, rfl⟩

/-- A recorder that refuses was told how many bytes were delivered. -/
theorem report_failed {got : Filling} {r r' : ρ} {e : ReadError} (h : report src got r = (.failed e, r')) :
    ∃ recorder, src.recorder = some recorder ∧ 0 < got.count ∧ recorder.record got.count r = (.error e, r') := by
  unfold report at h
  split at h
  · cases h
  · rename_i recorder hrecorder
    split at h
    · cases h
    · rename_i hcount
      split at h
      · cases h
      · rename_i hrecord
        cases h
        exact ⟨recorder, hrecorder, by omega, hrecord⟩

/-- What is reported neither makes a delivery stall nor makes it come to its end. -/
theorem deliverAndReport_stalled (gap : Nat → Nat → ByteArray) (c : Channel H) (w : World σ ρ) :
    (deliverAndReport src n want gap c w).1 = .stalled ↔
      (deliver src.transport n want gap c w.transport).1 = .stalled := by
  unfold deliverAndReport
  split
  · rename_i got c' s' hdeliver
    rw [hdeliver]
    dsimp only
    rcases report_eq src got w.recorder with hreport | ⟨e, hreport⟩
    · rw [hreport]
    · rw [hreport]
      exact ⟨nofun, nofun⟩
  · rename_i hdeliver
    rw [hdeliver]

theorem deliverAndReport_readsTo (hwant : 0 < want) (gap : Nat → Nat → ByteArray) (c : Channel H) (w : World σ ρ) :
    ReadsTo src n want c w (deliverAndReport src n want gap c w).1 (deliverAndReport src n want gap c w).2.1
      (deliverAndReport src n want gap c w).2.2 := by
  unfold deliverAndReport
  rcases hdeliver : deliver src.transport n want gap c w.transport with ⟨a, c', s'⟩
  cases a with
  | stalled => exact .stalls hwant hdeliver
  | failed e => exact .fails hwant hdeliver
  | done got =>
    dsimp only
    rcases hreport : report src got w.recorder with ⟨a, r⟩
    rcases report_eq src got w.recorder with ha | ⟨e, ha⟩
    · rw [hreport] at ha
      subst ha
      exact .delivers hwant hdeliver hreport
    · rw [hreport] at ha
      subst ha
      exact .refused hwant hdeliver hreport

theorem readInto_readsTo (buffer : ByteArray) (c : Channel H) (w : World σ ρ) :
    ReadsTo src n buffer.size c w (c.readInto src n buffer w).1 (c.readInto src n buffer w).2.1
      (c.readInto src n buffer w).2.2 := by
  unfold readInto
  split
  · exact .nothing (by simp)
  · split
    · exact .nothing (by simp)
    · rename_i hsize
      exact (deliverAndReport_readsTo (Nat.pos_of_ne_zero hsize) _ _ _).map _

theorem read_readsTo (k : Option Int) (c : Channel H) (w : World σ ρ) :
    ReadsTo src n (c.asked k).toNat c w (c.read src n k w).1 (c.read src n k w).2.1 (c.read src n k w).2.2 := by
  unfold read
  split
  · exact .nothing (by simp)
  · dsimp only
    split
    · exact .nothing (by simp)
    · rename_i hwant
      split
      · exact .nothing (by simp)
      · exact (deliverAndReport_readsTo (by omega) _ _ _).map _

/-- Every read comes out as `ReadsTo` says. -/
theorem perform_readsTo {operation : Operation} (hread : operation.isRead = true) (c : Channel H) (w : World σ ρ) :
    ReadsTo src n (c.wants operation) c w (c.perform src n operation w).1 (c.perform src n operation w).2.1
      (c.perform src n operation w).2.2 := by
  cases operation with
  | read k => exact (read_readsTo k c w).map _
  | readAll => exact (read_readsTo none c w).map _
  | readInto buffer => exact (readInto_readsTo buffer c w).map _
  | seek offset whence => cases hread
  | tell => cases hread
  | close => cases hread

/-! ## Reads that deliver -/

/-- A read on a channel comes to a delivery: the channel is open, bytes are wanted, and there is memory for them. -/
def Engages (memory : Nat) (operation : Operation) (c : Channel H) : Prop :=
  c.closed = false ∧ 0 < c.wants operation ∧ c.newBuffer operation ≤ memory

/-- Only reads deliver. -/
theorem Engages.isRead {memory : Nat} {operation : Operation} {c : Channel H} (h : c.Engages memory operation) :
    operation.isRead = true := by
  obtain ⟨-, hwants, -⟩ := h
  cases operation with
  | read k => rfl
  | readAll => rfl
  | readInto buffer => rfl
  | seek offset whence => exact absurd hwants (Nat.lt_irrefl 0)
  | tell => exact absurd hwants (Nat.lt_irrefl 0)
  | close => exact absurd hwants (Nat.lt_irrefl 0)

theorem readInto_of_engages {buffer : ByteArray} {c : Channel H} (h : c.Engages src.memory (.readInto buffer))
    (w : World σ ρ) : c.readInto src n buffer w =
      ((deliverAndReport src n buffer.size buffer.extract c w).1.map fun got =>
        (got.readCount, got.firstBytes buffer.extract buffer.size),
        (deliverAndReport src n buffer.size buffer.extract c w).2) := by
  obtain ⟨hopen, hwants, -⟩ := h
  have hsize : buffer.size ≠ 0 := Nat.ne_of_gt hwants
  unfold readInto
  rw [if_neg (by simp [hopen]), if_neg hsize]

/-- It leaves the transport as its delivery does. -/
theorem readInto_transport {buffer : ByteArray} {c : Channel H} (h : c.Engages src.memory (.readInto buffer))
    (w : World σ ρ) : (c.readInto src n buffer w).2.2.transport =
      (deliver src.transport n buffer.size buffer.extract c w.transport).2.2 := by
  rw [readInto_of_engages h]
  exact (deliverAndReport_channel buffer.size buffer.extract c w).2

/-- It answers as its delivery does, if the recorder accepts that. -/
theorem readInto_answer (haccepts : src.Accepts) {buffer : ByteArray} {c : Channel H}
    (h : c.Engages src.memory (.readInto buffer)) (w : World σ ρ) : (c.readInto src n buffer w).1 =
      (deliver src.transport n buffer.size buffer.extract c w.transport).1.map fun got =>
        (got.readCount, got.firstBytes buffer.extract buffer.size) := by
  rw [readInto_of_engages h]
  exact congrArg (Outcome.map _) (deliverAndReport_answer haccepts n buffer.size buffer.extract c w)

theorem read_of_engages {k : Option Int} {c : Channel H} (h : c.Engages src.memory (.read k)) (w : World σ ρ) :
    c.read src n k w =
      ((deliverAndReport src n (c.asked k).toNat blank c w).1.map (delivered (c.asked k).toNat),
        (deliverAndReport src n (c.asked k).toNat blank c w).2) := by
  obtain ⟨hopen, hwants, hfits⟩ := h
  have hpos : 0 < (c.asked k).toNat := hwants
  have hle : c.asked k ≤ src.memory := hfits
  unfold read
  rw [if_neg (by simp [hopen])]
  dsimp only
  rw [if_neg (by omega), Buffer.check_eq_ok_iff.mpr (by omega)]

/-- What is made of an answer neither makes it stall nor makes it come to its end. -/
theorem map_eq_stalled {ε : Type} {a : Outcome ε α} (f : α → β) : a.map f = .stalled ↔ a = .stalled := by
  cases a with
  | done x => exact ⟨nofun, nofun⟩
  | failed e => exact ⟨nofun, nofun⟩
  | stalled => exact ⟨fun _ => rfl, fun _ => rfl⟩

instance {ε β : Type} [DecidableEq ε] (a : Outcome ε β) : Decidable (a = .stalled) :=
  decidable_of_iff (a.map (fun _ => ()) = .stalled) (map_eq_stalled _)

/-- Such a read is a delivery that is reported. -/
theorem perform_of_engages {operation : Operation} {c : Channel H} (hread : operation.isRead = true)
    (h : c.Engages src.memory operation) (w : World σ ρ) :
    ∃ gap, (c.perform src n operation w).2 = (deliverAndReport src n (c.wants operation) gap c w).2 ∧
      ((deliverAndReport src n (c.wants operation) gap c w).1 = .stalled →
        (c.perform src n operation w).1 = .stalled) := by
  cases operation with
  | read k =>
    refine ⟨blank, congrArg Prod.snd (read_of_engages h w), fun hstalled => ?_⟩
    show (c.read src n k w).1.map _ = _
    rw [read_of_engages h w]
    exact (map_eq_stalled _).mpr ((map_eq_stalled _).mpr hstalled)
  | readAll =>
    refine ⟨blank, congrArg Prod.snd (read_of_engages (k := none) h w), fun hstalled => ?_⟩
    show (c.read src n none w).1.map _ = _
    rw [read_of_engages h w]
    exact (map_eq_stalled _).mpr ((map_eq_stalled _).mpr hstalled)
  | readInto buffer =>
    refine ⟨buffer.extract, congrArg Prod.snd (readInto_of_engages h w), fun hstalled => ?_⟩
    show (c.readInto src n buffer w).1.map _ = _
    rw [readInto_of_engages h w]
    exact (map_eq_stalled _).mpr ((map_eq_stalled _).mpr hstalled)
  | seek offset whence => cases hread
  | tell => cases hread
  | close => cases hread

/-- Any other read changes nothing. -/
theorem perform_of_not_engages {operation : Operation} {c : Channel H} (hread : operation.isRead = true)
    (h : ¬c.Engages src.memory operation) (w : World σ ρ) : (c.perform src n operation w).2 = (c, w) := by
  cases hopen : c.closed with
  | true => exact perform_of_closed hopen operation w
  | false =>
    have hnot : ¬(0 < c.wants operation ∧ c.newBuffer operation ≤ src.memory) := fun hrest => h ⟨hopen, hrest⟩
    have hreads : ∀ k, ¬(0 < (c.asked k).toNat ∧ c.asked k ≤ src.memory) → (c.read src n k w).2 = (c, w) := by
      intro k hnot
      unfold read
      rw [if_neg (by simp [hopen])]
      dsimp only
      split
      · rfl
      · split
        · rfl
        · rename_i hfits
          have hle := Buffer.check_eq_ok_iff.mp hfits
          omega
    cases operation with
    | read k => exact hreads k hnot
    | readAll => exact hreads none hnot
    | readInto buffer =>
      have hsize : buffer.size = 0 :=
        Nat.eq_zero_of_not_pos fun hpos => hnot ⟨hpos, Int.natCast_nonneg src.memory⟩
      show (c.readInto src n buffer w).2 = (c, w)
      unfold readInto
      rw [if_neg (by simp [hopen]), if_pos hsize]
    | seek offset whence => cases hread
    | tell => cases hread
    | close => cases hread

end RangeRead.Channel
