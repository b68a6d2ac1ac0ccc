import RangeRead.Proofs.PlainFile
import RangeRead.Proofs.Store.Asked
import RangeRead.Proofs.Store.Memory
import RangeRead.Store.Channel

/-!
# Channels over a store as plain files

However a channel over a store is opened, it is new and on the object that it was opened on (`Opened.isNew`). If the
store serves that object, whatever its chunks are, the channel answers every list of operations as the plain file of
the object's bytes does (`run_eq_plainFile`).
-/

namespace RangeRead

variable {σ C H ρ : Type} {store : Store σ C} {o : ObjectHandle} {data : ByteArray} {I : σ → Prop}

/-! ## Opening -/

/-- The ways to open a channel on `o` over a store, from the state `s₀` of the store on. -/
inductive Store.Opened (store : Store σ C) (o : ObjectHandle) (s₀ : σ) : Channel (StoreRange C) → σ → Prop
  | read {options c} (h : Channel.openRead (some o) options = .ok c) : Opened store o s₀ c s₀
  | adaptive {options c} (h : Channel.openAdaptive (some o) options = .ok c) : Opened store o s₀ c s₀
  | simple {options c} (h : Channel.openSimple (some o) options = .ok c) : Opened store o s₀ c s₀
  | byPath {path object options c s} (h : store.openChannel path object options s₀ = (.ok c, s))
      (hobject : c.object = o) : Opened store o s₀ c s

namespace Channel

theorem openAdaptive_isNew {options : Option ReadOptions} {c : Channel H} (h : openAdaptive (some o) options = .ok c) :
    IsNew c ∧ c.object = o := by
  cases h
  exact ⟨.adaptive _ _, rfl⟩

theorem openSimple_isNew {options : Option ReadOptions} {c : Channel H} (h : openSimple (some o) options = .ok c) :
    IsNew c ∧ c.object = o := by
  cases h
  exact ⟨.simple _ _, rfl⟩

theorem openRead_isNew {options : Option ReadOptions} {c : Channel H} (h : openRead (some o) options = .ok c) :
    IsNew c ∧ c.object = o := by
  unfold openRead at h
  split at h
  · exact openAdaptive_isNew h
  · exact openSimple_isNew h

end Channel

namespace Store

/-- Finding the object at a path keeps what a serving store keeps. -/
theorem Serves.resolve (hserves : store.Serves o data I) {s : σ} (hs : I s) (path : String)
    (object : Option ObjectHandle) : I (store.resolve path object s).2 := by
  unfold Store.resolve
  split
  · have hhead := hserves.head path hs
    unfold Store.pin
    split
    · rename_i heq
      rw [heq] at hhead
      exact hhead
    · rename_i heq
      rw [heq] at hhead
      split <;> exact hhead
  · split <;> exact hs

/-- A channel that has been opened on `o` is new and on `o`, and the store goes on to serve. -/
theorem Opened.isNew (hserves : store.Serves o data I) {s₀ s : σ} {c : Channel (StoreRange C)} (hs : I s₀)
    (h : store.Opened o s₀ c s) : Channel.IsNew c ∧ c.object = o ∧ I s := by
  cases h with
  | read h => exact ⟨(Channel.openRead_isNew h).1, (Channel.openRead_isNew h).2, hs⟩
  | adaptive h => exact ⟨(Channel.openAdaptive_isNew h).1, (Channel.openAdaptive_isNew h).2, hs⟩
  | simple h => exact ⟨(Channel.openSimple_isNew h).1, (Channel.openSimple_isNew h).2, hs⟩
  | @byPath path object options _ _ h hobject =>
    have hresolve := hserves.resolve hs path object
    unfold openChannel at h
    split at h
    · cases h
    · rename_i found s₁ heq
      rw [heq] at hresolve
      have hopen : Channel.openRead (some found) options = .ok c := congrArg Prod.fst h
      have hstate : s₁ = s := congrArg Prod.snd h
      rw [← hstate]
      exact ⟨(Channel.openRead_isNew hopen).1, hobject, hresolve⟩

/-- **A channel over a store is a plain file.** Every list of operations gets the answers of a file that holds only the
bytes of the object, a position and whether it is closed. -/
theorem run_eq_plainFile {recorder : Option (Recorder ρ)} {memory n : Nat} (hserves : store.Serves o data I)
    (hsize : data.size = o.size) (haccepts : Source.Accepts ⟨store.transport, recorder, memory⟩) {s₀ s : σ} (hs : I s₀)
    {c : Channel (StoreRange C)} (hopened : store.Opened o s₀ c s) (hn : 2 * o.size + 1 < n) (r : ρ)
    (operations : List Operation) :
    (c.run ⟨store.transport, recorder, memory⟩ n operations ⟨s, r⟩).1 =
      (PlainFile.run memory operations { data := data }).1 := by
  obtain ⟨hnew, hobject, hs'⟩ := hopened.isNew hserves hs
  have ht := transport_reliable hserves hsize
  have hp : Channel.Placed (view store o data I) o c s := hnew.placed hobject hs'
  have hm : Channel.Mirrors data c { data := data } := ⟨rfl, hnew.position, hnew.closed⟩
  exact (Channel.run_mirrors ht haccepts hsize hn operations hp hm).1

/-- So it is for an object of eight bytes in memory that is opened by its path and read at random, in ranges of three
bytes that arrive in chunks of two. After the seek the open range is read on, and the read after it needs two ranges. -/
theorem run_eq_plainFile_memory :
    let store := (Memory.store 1).logged
    let object : ObjectHandle := { path := "object", size := 8 }
    let options : ReadOptions := { accessPattern := .random, minRangeRequestSize := 3 }
    let s : Asked Memory.Objects := ⟨[("object", ⟨#[1, 2, 3, 4, 5, 6, 7, 8]⟩)], [.head "object"]⟩
    let file : PlainFile := { data := ⟨#[1, 2, 3, 4, 5, 6, 7, 8]⟩ }
    let operations : List Operation := [.read (some 1), .seek 2 0, .read (some 4), .readAll]
    let after :=
      (Channel.adaptive object options).run (⟨store.transport, none, 8⟩ : Source _ _ Unit) 18 operations ⟨s, ()⟩
    store.openChannel "object" none (some options) (.start s.behind) = (.ok (.adaptive object options), s) ∧
      after.1 = (file.run 8 operations).1 ∧
      (file.run 8 operations).1 = [.done (.bytes ⟨#[1]⟩), .done (.position 2), .done (.bytes ⟨#[3, 4, 5, 6]⟩),
        .done (.bytes ⟨#[7, 8]⟩)] ∧
      after.2.2.transport.requests = [.head "object", .get "object" 0 3 none, .get "object" 3 6 none,
        .get "object" 6 8 none] := by
  intro store object options s file operations after
  have hserves := (Memory.store_serves (o := object) (d := file.data) 1 rfl).logged
  have hlookup : (Asked.start s.behind).behind.lookup "object" = some file.data := by simp [s, file, Asked.start]
  have hopen : store.openChannel "object" none (some options) (.start s.behind) =
      (.ok (.adaptive object options), s) := rfl
  exact ⟨hopen, run_eq_plainFile hserves rfl (fun _ h => by cases h) hlookup (.byPath hopen rfl) (by decide) () _,
    rfl, by decide +kernel⟩

end Store

end RangeRead
