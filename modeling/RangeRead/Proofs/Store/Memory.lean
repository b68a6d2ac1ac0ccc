import RangeRead.Proofs.Store.Served
import RangeRead.Store.Memory

/-!
# Stores in memory serve their objects

A stream of a store in memory sends the bytes that were asked for (`sends_stream`), so that the store serves every
object that it holds under its path and with its size (`store_serves`).
-/

namespace RangeRead.Memory

/-- A stream sends the bytes from its position up to its end. -/
theorem sends_stream (chunkSize : Nat) (I : Objects → Prop) (stream : Stream) (hle : stream.position ≤ stream.stop) :
    ∃ chunks, (store chunkSize).Sends I chunks stream ∧
      Store.joined chunks = stream.data.extract stream.position stream.stop := by
  generalize hleft : stream.stop - stream.position = left
  induction left using Nat.strongRecOn generalizing stream with
  | ind left ih =>
    by_cases hlt : stream.position < stream.stop
    · let next := min stream.stop (stream.position + (chunkSize + 1))
      have hnext : stream.position < next ∧ next ≤ stream.stop := by omega
      obtain ⟨chunks, hsends, hjoined⟩ :=
        ih (stream.stop - next) (by omega) { stream with position := next } hnext.2 rfl
      refine ⟨stream.data.extract stream.position next :: chunks, fun s hs => ⟨_, s, ?_, hs, hsends⟩, ?_⟩
      · simp only [store, send]
        rw [if_pos hlt]
      · show stream.data.extract stream.position next ++ Store.joined chunks = _
        rw [hjoined, ByteArray.extract_append_extract, Nat.min_eq_left (by omega), Nat.max_eq_right hnext.2]
    · have hend : stream.position = stream.stop := by omega
      refine ⟨[], trivial, ?_⟩
      rw [hend, ByteArray.extract_same]
      rfl

/-- A store in memory serves an object in all states in which it holds it; no call changes the state. -/
theorem store_serves_where {o : ObjectHandle} {d : ByteArray} {I : Objects → Prop} (chunkSize : Nat)
    (hsize : d.size = o.size) (hI : ∀ {objects}, I objects → objects.lookup o.path = some d) :
    (store chunkSize).Serves o d I where
  note _ hs := hs
  head {objects} path hs := by
    simp only [store]
    split <;> exact hs
  get {objects start stop} hs hw hlt := by
    have hstop : min stop.toNat d.size = stop.toNat := by
      have hle := hw.le_size
      omega
    have hle : start.toNat ≤ stop.toNat := by
      have h := hw.le
      omega
    obtain ⟨chunks, hsends, hjoined⟩ := sends_stream chunkSize I
      ⟨d, start.toNat, min stop.toNat d.size⟩ (by rw [hstop]; exact hle)
    refine ⟨_, objects, chunks, .empty, ?_, hs, hsends, ?_⟩
    · simp only [store]
      rw [hI hs]
    · rw [hjoined, hstop, ByteArray.append_empty]

/-- A store in memory serves the objects that it holds. -/
theorem store_serves {o : ObjectHandle} {d : ByteArray} (chunkSize : Nat) (hsize : d.size = o.size) :
    (store chunkSize).Serves o d fun objects => objects.lookup o.path = some d :=
  store_serves_where chunkSize hsize id

end RangeRead.Memory
