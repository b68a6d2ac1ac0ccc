/-!
# Parts of byte arrays
-/

namespace RangeRead

/-- The bytes between two offsets. -/
def part (data : ByteArray) (start stop : Int) : ByteArray := data.extract start.toNat stop.toNat

theorem part_self (data : ByteArray) (start : Int) : part data start start = .empty := ByteArray.extract_same

/-- Two parts that meet. -/
theorem part_append_part (data : ByteArray) {start middle stop : Int} (h : start ≤ middle) (h' : middle ≤ stop) :
    part data start middle ++ part data middle stop = part data start stop := by
  unfold part
  rw [ByteArray.extract_append_extract, Nat.min_eq_left (by omega), Nat.max_eq_right (by omega)]

theorem part_size {data : ByteArray} {start stop : Int} (h0 : 0 ≤ start) (h : start ≤ stop)
    (hstop : stop ≤ data.size) : ((part data start stop).size : Int) = stop - start := by
  unfold part
  rw [ByteArray.size_extract]
  omega

/-- A part that reaches beyond the bytes is the part up to where it ends. -/
theorem extract_to_end (data : ByteArray) (start stop : Nat) :
    data.extract start (start + (data.extract start stop).size) = data.extract start stop := by
  apply ByteArray.ext_getElem
  · simp only [ByteArray.size_extract]
    omega
  · intro i h h'
    simp only [ByteArray.getElem_extract]

/-- Nothing lies behind the last byte. -/
theorem extract_of_size_le {data : ByteArray} {stop : Nat} (start : Nat) (h : data.size ≤ stop) :
    data.extract start stop = data.extract start data.size := by
  apply ByteArray.ext_getElem
  · simp only [ByteArray.size_extract]
    omega
  · intro i _ _
    simp only [ByteArray.getElem_extract]

/-- The first bytes of a part. -/
theorem extract_extract_to {data : ByteArray} {start stop n : Nat} (h : start + n ≤ stop) :
    (data.extract start stop).extract 0 n = data.extract start (start + n) := by
  rw [ByteArray.extract_extract, Nat.add_zero, Nat.min_eq_left h]

/-- The bytes of a part behind the first ones. -/
theorem extract_extract_from (data : ByteArray) (start stop n : Nat) :
    (data.extract start stop).extract n (data.extract start stop).size = data.extract (start + n) stop := by
  apply ByteArray.ext_getElem
  · simp only [ByteArray.size_extract]
    omega
  · intro i _ _
    simp only [ByteArray.getElem_extract, Nat.add_assoc]

/-- The first bytes of two arrays in a row are those of the first one. -/
theorem extract_append_of_le {a b : ByteArray} {n : Nat} (h : n ≤ a.size) : (a ++ b).extract 0 n = a.extract 0 n := by
  have hnone : b.extract (0 - a.size) (n - a.size) = .empty := by
    rw [Nat.zero_sub, Nat.sub_eq_zero_of_le h]
    exact ByteArray.extract_same
  rw [ByteArray.extract_append, hnone, ByteArray.append_empty]

/-- Behind them are the rest of the first one and the second one. -/
theorem extract_append_from {a b : ByteArray} {n : Nat} (h : n ≤ a.size) :
    (a ++ b).extract n (a ++ b).size = a.extract n a.size ++ b := by
  have hfirst : a.extract n (a.size + b.size) = a.extract n a.size := extract_of_size_le n (by omega)
  have hsecond : b.extract (n - a.size) (a.size + b.size - a.size) = b := by
    rw [Nat.sub_eq_zero_of_le h, Nat.add_sub_cancel_left, ByteArray.extract_zero_size]
  rw [ByteArray.size_append, ByteArray.extract_append, hfirst, hsecond]

/-- Where two splittings of the same bytes both begin with `n` bytes, these and what follows them are the same. -/
theorem split_append {a b d e : ByteArray} {n : Nat} (h : a ++ b = d ++ e) (ha : n ≤ a.size) (hd : n ≤ d.size) :
    a.extract 0 n = d.extract 0 n ∧ a.extract n a.size ++ b = d.extract n d.size ++ e := by
  rw [← extract_append_of_le ha, ← extract_append_of_le hd, ← extract_append_from ha, ← extract_append_from hd, h]
  exact ⟨rfl, rfl⟩

end RangeRead
