import RangeRead.Proofs.Channel.Placed
import RangeRead.Proofs.Transport.Scripted

/-!
# What reads deliver

Over a truthful transport the bytes that have been read are those of the object between the position where the delivery
began and the position that it has come to (`Filling.HasRead`, `hasRead_kept`). A delivery that comes to its end has
therefore read exactly the bytes that were wanted, or all that were left (`deliver_exact`), and so has every read that
returns (`readInto_exact`, `read_exact`): what fails on the way, or ends too early, never shortens a read.
-/

namespace RangeRead

variable {σ H ρ : Type} {t : Transport σ H} {o : ObjectHandle} {v : View σ H} {data : ByteArray}

/-- `bytes` are the `size` bytes of `data` from `start` on, all of which are there. -/
structure IsPart (data : ByteArray) (start size : Nat) (bytes : ByteArray) : Prop where
  eq_extract : bytes = data.extract start (start + size)
  size_eq : bytes.size = size

/-- How many bytes a read of `n` is due where `left` are left: so many at most, or all of them. -/
def due (left : Nat) : Option Int → Nat
  | none => left
  | some n => if n < 0 then left else min n.toNat left

theorem due_le (left : Nat) (k : Option Int) : due left k ≤ left := by
  unfold due
  split
  · exact Nat.le_refl _
  · split <;> omega

/-! ## Fillings -/

/-- Counted bytes are followed by the next ones. -/
theorem fillOffset_natCast (size count : Nat) : fillOffset size count = count := by
  unfold fillOffset
  rw [if_pos (Int.natCast_nonneg count), Int.toNat_natCast]

/-- Bytes that are put at the end of what has been written follow it. -/
theorem overwrite_end {gap : Nat → Nat → ByteArray} (hgap : ∀ n, gap n n = .empty) (front bytes : ByteArray) :
    overwrite gap front front.size bytes = front ++ bytes := by
  unfold overwrite
  rw [if_pos (Nat.le_refl _), hgap, ByteArray.append_empty]

namespace Filling

/-- A delivery of `want` bytes that began at `start` has read those of `data` up to `position`. -/
structure HasRead (data : ByteArray) (want : Nat) (start : Int) (got : Filling) (position : Int) : Prop where
  nonneg : 0 ≤ start
  start_le : start ≤ position
  count_eq : got.count = position - start
  count_le : got.count ≤ want
  size_eq : (got.front.size : Int) = got.count
  front_eq : got.front = data.extract start.toNat position.toNat

theorem HasRead.start {start : Int} (want : Nat) (h : 0 ≤ start) : HasRead data want start {} start where
  nonneg := h
  start_le := Int.le_refl _
  count_eq := (Int.sub_self start).symm
  count_le := Int.natCast_nonneg want
  size_eq := rfl
  front_eq := ByteArray.extract_same.symm

/-- The next bytes go to the end of what has been written. -/
theorem HasRead.front_add {want : Nat} {start position : Int} {got : Filling} {gap : Nat → Nat → ByteArray}
    (h : HasRead data want start got position) (hgap : ∀ n, gap n n = .empty) (bytes : ByteArray) (reported : Int) :
    (got.add gap want bytes reported).front = got.front ++ bytes := by
  obtain ⟨count, front⟩ := got
  have hsize : (front.size : Int) = count := h.size_eq
  have hoffset : fillOffset want count = front.size := by rw [← hsize, fillOffset_natCast]
  show overwrite gap front (fillOffset want count) bytes = front ++ bytes
  rw [hoffset, overwrite_end hgap]

/-- The answers of a truthful transport keep what has been read. -/
theorem hasRead_kept (ht : t.Truthful o data v) (want : Nat) {gap : Nat → Nat → ByteArray}
    (hgap : ∀ n, gap n n = .empty) (start : Int) : Kept t o v want gap (HasRead data want start) where
  ended {got h cursor stop s bytes h' s'} hs hw hread hj := by
    obtain rfl := ht.writes_nothing hs hw hread
    have hcount : (got.add gap want .empty 0).count = got.count := Int.add_zero _
    have hfront : (got.add gap want .empty 0).front = got.front := by
      rw [hj.front_add hgap, ByteArray.append_empty]
    refine ⟨hj.nonneg, hj.start_le, hcount.trans hj.count_eq, ?_, ?_, hfront.trans hj.front_eq⟩
    · rw [hcount]
      exact hj.count_le
    · rw [hfront, hcount]
      exact hj.size_eq
  delivered {got h cursor stop s bytes excess h' s'} hs hw hread hj := by
    obtain ⟨hn, hwant, -⟩ := ht.reports hs hw hread
    obtain ⟨rfl, hbytes⟩ := ht.writes hs hw hread
    have hfront := hj.front_add hgap bytes (bytes.size + 0)
    have hcount : (got.add gap want bytes (bytes.size + 0)).count = got.count + (bytes.size + 0) := rfl
    obtain ⟨h0, hle, heq, hmax, hsize, hold⟩ := hj
    have hroom : ((got.room want : Nat) : Int) = want - got.count := by
      unfold room fillOffset
      split <;> omega
    refine ⟨h0, by omega, by omega, by omega, ?_, ?_⟩
    · rw [hfront, hcount, ByteArray.size_append]
      omega
    · -- the two parts meet at the cursor
      have hend : (cursor + (bytes.size + 0)).toNat = cursor.toNat + bytes.size := by omega
      rw [hfront, hend]
      conv => lhs; rw [hold, hbytes]
      rw [ByteArray.extract_append_extract, Nat.min_eq_left (by omega), Nat.max_eq_right (by omega)]

end Filling

namespace Channel

/-! ## Deliveries -/

/-- A delivery that comes to its end has read what was wanted, or all that was left, and has moved past it. -/
theorem deliver_exact (ht : t.Truthful o data v) {n want : Nat} {gap : Nat → Nat → ByteArray}
    (hgap : ∀ n, gap n n = .empty) {c c' : Channel H} {s s' : σ} {got : Filling} (hp : Placed v o c s)
    (h : deliver t n want gap c s = (.done got, c', s')) :
    IsPart data c.position.toNat (min want (o.size - c.position.toNat)) got.front ∧
      got.count = (min want (o.size - c.position.toNat) : Nat) ∧ c'.position = c.position + got.count := by
  have hkept := Filling.hasRead_kept ht want hgap c.position
  obtain ⟨hp', hdone⟩ := (Delivers.of_eq h).placed ht.toHonest hkept hp (.start want hp.nonneg)
  obtain ⟨hread, hend⟩ := hdone got rfl
  obtain ⟨h0, hstart, hcount, hmax, hsize, hfront⟩ := hread
  have hle : c'.position ≤ o.size := hp'.le_size
  have hexact : got.count = (min want (o.size - c.position.toNat) : Nat) := by omega
  refine ⟨⟨?_, by omega⟩, hexact, by omega⟩
  have hposition : c'.position.toNat = c.position.toNat + min want (o.size - c.position.toNat) := by omega
  rw [hfront, hposition]

/-- A report changes nothing of what has been read. -/
theorem report_done {src : Source σ H ρ} {got got' : Filling} {r r' : ρ} (h : report src got r = (.done got', r')) :
    got' = got := by
  unfold report at h
  split at h
  · cases h; rfl
  · split at h
    · cases h; rfl
    · split at h
      · cases h; rfl
      · cases h

/-- What has been reported had been delivered. -/
theorem deliver_of_report {src : Source σ H ρ} {n want : Nat} {gap : Nat → Nat → ByteArray} {c c' : Channel H}
    {w w' : World σ ρ} {got : Filling} (h : deliverAndReport src n want gap c w = (.done got, c', w')) :
    deliver src.transport n want gap c w.transport = (.done got, c', w'.transport) := by
  unfold deliverAndReport at h
  split at h
  · rename_i got' c₁ s₁ hd
    rcases hr : report src got' w.recorder with ⟨answer, r⟩
    rw [hr] at h
    cases h
    rw [report_done hr]
    exact hd
  · rename_i hne _
    cases h
    exact absurd rfl (hne got)

/-! ## Operations -/

/-- What a read asks for is what it is due. -/
theorem asked_eq {c : Channel H} (h0 : 0 ≤ c.position) (hle : c.position ≤ c.object.size) (k : Option Int) :
    c.asked k = (due (c.object.size - c.position.toNat) k : Nat) := by
  unfold asked due
  cases k with
  | none =>
    dsimp only
    omega
  | some k =>
    dsimp only
    split <;> split <;> omega

theorem asked_eq_due {c : Channel H} {s : σ} (hp : Placed v o c s) (k : Option Int) :
    c.asked k = (due (o.size - c.position.toNat) k : Nat) := by
  have hobject := hp.object
  subst hobject
  exact asked_eq hp.nonneg hp.le_size k

theorem blank_same (n : Nat) : blank n n = .empty := by
  unfold blank
  rw [Nat.sub_self]
  rfl

/-- A new buffer that has been filled is delivered as it is. -/
theorem delivered_full {got : Filling} (h : got.count = got.front.size) : delivered got.front.size got = got.front := by
  unfold delivered Filling.firstBytes
  rw [if_neg (by omega), h, fillOffset_natCast, Nat.min_self, if_pos (Nat.le_refl _), blank_same,
    ByteArray.append_empty]

variable {src : Source σ H ρ} (ht : src.transport.Truthful o data v)
include ht

/-- A read into a buffer that returns has put there the bytes that fit or were left, and told the end only at the end
of the object. -/
theorem readInto_exact {n : Nat} {buffer buffer' : ByteArray} {count : ReadCount} {c c' : Channel H} {w w' : World σ ρ}
    (hp : Placed v o c w.transport) (hsize : 0 < buffer.size)
    (h : c.readInto src n buffer w = (.done (count, buffer'), c', w')) :
    c.position.toNat = o.size ∧ count = .endOfStream ∧ buffer' = buffer ∧ c'.position = c.position ∨
    c.position.toNat < o.size ∧ ∃ bytes,
      IsPart data c.position.toNat (min buffer.size (o.size - c.position.toNat)) bytes ∧
      count = .bytes bytes.size ∧ buffer' = bytes ++ buffer.extract bytes.size buffer.size ∧
      c'.position = c.position + bytes.size := by
  have h0 := hp.nonneg
  have hle := hp.le_size
  unfold readInto at h
  split at h
  · cases h
  · rw [if_neg (by omega)] at h
    rcases hd : deliverAndReport src n buffer.size buffer.extract c w with ⟨answer, c₁, w₁⟩
    rw [hd] at h
    cases answer with
    | failed e => cases h
    | stalled => cases h
    | done got =>
      obtain ⟨hpart, hcount, hposition⟩ :=
        deliver_exact ht (fun _ => ByteArray.extract_same) hp (deliver_of_report hd)
      cases h
      have hfront := hpart.size_eq
      have hbuffer : got.firstBytes buffer.extract buffer.size =
          got.front ++ buffer.extract got.front.size buffer.size := by
        unfold Filling.firstBytes
        rw [if_pos (by omega)]
      by_cases hend : c.position.toNat = o.size
      · have hnone : got.count = 0 := by omega
        have hempty : got.front = .empty := ByteArray.size_eq_zero_iff.mp (by omega)
        refine .inl ⟨hend, ?_, ?_, by omega⟩
        · unfold Filling.readCount
          rw [if_pos hnone]
        · rw [hbuffer, hempty, ByteArray.empty_append]
          exact ByteArray.extract_zero_size
      · refine .inr ⟨by omega, got.front, hpart, ?_, hbuffer, by omega⟩
        unfold Filling.readCount
        rw [if_neg (by omega), hcount, hfront]

/-- A read that returns has delivered the bytes that were due. -/
theorem read_exact {n : Nat} {k : Option Int} {bytes : ByteArray} {c c' : Channel H} {w w' : World σ ρ}
    (hp : Placed v o c w.transport) (h : c.read src n k w = (.done bytes, c', w')) :
    IsPart data c.position.toNat (due (o.size - c.position.toNat) k) bytes ∧
      c'.position = c.position + bytes.size := by
  have h0 := hp.nonneg
  have hle := hp.le_size
  have hdue := due_le (o.size - c.position.toNat) k
  have hasked := asked_eq_due hp k
  unfold read at h
  split at h
  · cases h
  · dsimp only at h
    split at h
    · cases h
      have hnothing : due (o.size - c.position.toNat) k = 0 := by omega
      rw [hnothing]
      exact ⟨⟨ByteArray.extract_same.symm, rfl⟩, (Int.add_zero _).symm⟩
    · split at h
      · cases h
      · rw [hasked, Int.toNat_natCast] at h
        rcases hd : deliverAndReport src n (due (o.size - c.position.toNat) k) blank c w with ⟨answer, c₁, w₁⟩
        rw [hd] at h
        cases answer with
        | failed e => cases h
        | stalled => cases h
        | done got =>
          obtain ⟨hpart, hcount, hposition⟩ := deliver_exact ht blank_same hp (deliver_of_report hd)
          cases h
          rw [Nat.min_eq_left hdue] at hpart hcount
          have hfull : got.count = got.front.size := by rw [hcount, hpart.size_eq]
          have hbytes : delivered (due (o.size - c.position.toNat) k) got = got.front := by
            rw [← hpart.size_eq]
            exact delivered_full hfull
          rw [hbytes]
          exact ⟨hpart, hposition.trans (by rw [hfull])⟩

omit ht in
/-- At the position `p` of a channel every read that returns is complete. -/
structure ReadsExactly (src : Source σ H ρ) (data : ByteArray) (size p : Nat) (c : Channel H) (w : World σ ρ) :
    Prop where
  position : c.position = p
  le_size : p ≤ size
  /-- The end is told only at the end; anywhere else the buffer is filled as far as the object goes. -/
  readInto : ∀ {n buffer count buffer' c' w'}, 0 < buffer.size →
    c.readInto src n buffer w = (.done (count, buffer'), c', w') →
      p = size ∧ count = .endOfStream ∧ buffer' = buffer ∧ c'.position = p ∨
      p < size ∧ ∃ bytes, IsPart data p (min buffer.size (size - p)) bytes ∧ count = .bytes bytes.size ∧
        buffer' = bytes ++ buffer.extract bytes.size buffer.size ∧ c'.position = p + bytes.size
  read : ∀ {n k bytes c' w'}, c.read src n k w = (.done bytes, c', w') →
    IsPart data p (due (size - p) k) bytes ∧ c'.position = p + bytes.size

/-- **No read is short.** In every state that a channel comes to, whatever failed or ended early on the way there and
whatever does so during the read, a read that returns has delivered exactly the bytes of the object that it was due. -/
theorem reads_exactly {w₀ w : World σ ρ} {c : Channel H} (hidle : v.idle w₀.transport)
    (h : Reached src o w₀ c w) : ∃ p, ReadsExactly src data o.size p c w := by
  have hp : Placed v o c w.transport :=
    (placed_invariant ht.toHonest).reached (fun _ hnew ho => hnew.placed ho hidle) h
  have h0 := hp.nonneg
  have hle := hp.le_size
  have hposition : c.position = c.position.toNat := by omega
  refine ⟨c.position.toNat, hposition, by omega, fun hsize hread => ?_, fun hread => ?_⟩
  · have hexact := readInto_exact ht hp hsize hread
    rwa [← hposition]
  · have hexact := read_exact ht hp hread
    rwa [← hposition]

omit ht in
/-- So it is after a read whose range failed when one of two bytes had come; read once more, both come. -/
theorem reads_exactly_after_failure :
    let object : ObjectHandle := { path := "object", size := 4 }
    let src : Source (List Scripted.Turn) Scripted.Span Unit := ⟨Scripted.transport ⟨#[1, 2, 3, 4]⟩, none, 4⟩
    let failed := (simple object .standard).perform src 9 (.read (some 2)) ⟨[.delivers 1, .fails .closedRange], ()⟩
    failed.1 = .failed .closedRange ∧ (failed.2.1.read src 9 (some 2) failed.2.2).1 = .done ⟨#[1, 2]⟩ ∧
      ∃ p, ReadsExactly src ⟨#[1, 2, 3, 4]⟩ 4 p failed.2.1 failed.2.2 := by
  have ht := Scripted.truthful (P := fun _ => True) (fun _ => trivial) { path := "object", size := 4 } ⟨#[1, 2, 3, 4]⟩
  have hnew : IsNew (simple { path := "object", size := 4 } .standard : Channel Scripted.Span) := .simple _ _
  exact ⟨rfl, rfl, reads_exactly ht trivial (.step (.new hnew rfl) 9 (.read (some 2)))⟩

end Channel

end RangeRead
