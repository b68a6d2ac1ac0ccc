import RangeRead.Proofs.Channel.Frame

/-!
# What one operation does to a channel

An operation does nothing to a channel and its transport, or delivers bytes, or moves the position, or closes the
channel (`perform_does`). `Reached` are the states that a new channel and its transport come to by operations; a
property that the three ways of doing something keep (`Invariant`) holds of all of them (`Invariant.reached`).

A closed channel has no range (`closed_invariant`), and nothing that is done with it changes anything
(`perform_of_closed`).
-/

namespace RangeRead.Channel

variable {σ H ρ : Type} {src : Source σ H ρ} {n : Nat}

/-! ## Operations -/

/-- What is reported makes no difference to the channel or the transport. -/
theorem deliverAndReport_channel (want : Nat) (gap : Nat → Nat → ByteArray) (c : Channel H) (w : World σ ρ) :
    (deliverAndReport src n want gap c w).2.1 = (deliver src.transport n want gap c w.transport).2.1 ∧
      (deliverAndReport src n want gap c w).2.2.transport = (deliver src.transport n want gap c w.transport).2.2 := by
  unfold deliverAndReport
  split
  · rename_i h; rw [h]; exact ⟨rfl, rfl⟩
  · rename_i h; rw [h]; exact ⟨rfl, rfl⟩

/-- What an operation does to a channel and its transport. -/
inductive Does (t : Transport σ H) (n : Nat) (c : Channel H) (s : σ) : Channel H → σ → Prop
  | nothing : Does t n c s c s
  | delivers (hopen : c.closed = false) (want : Nat) (gap : Nat → Nat → ByteArray) (hwant : 0 < want) :
    Does t n c s (deliver t n want gap c s).2.1 (deliver t n want gap c s).2.2
  | moves (hopen : c.closed = false) (target : Int) (h : 0 ≤ target) (hle : target ≤ c.object.size) :
    Does t n c s (c.moveTo t target s).1 (c.moveTo t target s).2
  | closes (hopen : c.closed = false) : Does t n c s (c.close t s).1 (c.close t s).2

theorem Does.of_report {want : Nat} {gap : Nat → Nat → ByteArray} {c : Channel H} {w : World σ ρ}
    (hopen : c.closed = false) (hwant : 0 < want) :
    Does src.transport n c w.transport (deliverAndReport src n want gap c w).2.1
      (deliverAndReport src n want gap c w).2.2.transport := by
  obtain ⟨hc, hs⟩ := @deliverAndReport_channel _ _ _ src n want gap c w
  rw [hc, hs]
  exact .delivers hopen want gap hwant

theorem read_does (k : Option Int) (c : Channel H) (w : World σ ρ) :
    Does src.transport n c w.transport (c.read src n k w).2.1 (c.read src n k w).2.2.transport := by
  unfold read
  split
  · exact .nothing
  · rename_i hopen
    dsimp only
    split
    · exact .nothing
    · rename_i hwant
      split
      · exact .nothing
      · exact .of_report (by simpa using hopen) (by omega)

theorem readInto_does (buffer : ByteArray) (c : Channel H) (w : World σ ρ) :
    Does src.transport n c w.transport (c.readInto src n buffer w).2.1 (c.readInto src n buffer w).2.2.transport := by
  unfold readInto
  split
  · exact .nothing
  · rename_i hopen
    split
    · exact .nothing
    · rename_i hsize
      exact .of_report (by simpa using hopen) (by omega)

theorem seek_does (offset whence : Int) (c : Channel H) (s : σ) :
    Does src.transport n c s (c.seek src.transport offset whence s).2.1 (c.seek src.transport offset whence s).2.2 := by
  unfold seek
  split
  · exact .nothing
  · rename_i hopen
    split
    · exact .nothing
    · rename_i target h
      obtain ⟨-, h0, hle⟩ := resolveSeek_eq_ok_iff.mp h
      exact .moves (by simpa using hopen) target h0 hle

theorem close_does (c : Channel H) (s : σ) :
    Does src.transport n c s (c.close src.transport s).1 (c.close src.transport s).2 := by
  cases hopen : c.closed with
  | false => exact .closes hopen
  | true =>
    have h : c.close src.transport s = (c, s) := by unfold close; rw [if_pos hopen]
    rw [h]
    exact .nothing

/-- Every operation does one of these things. -/
theorem perform_does (operation : Operation) (c : Channel H) (w : World σ ρ) :
    Does src.transport n c w.transport (c.perform src n operation w).2.1
      (c.perform src n operation w).2.2.transport := by
  cases operation with
  | read k => exact read_does k c w
  | readAll => exact read_does none c w
  | readInto buffer => exact readInto_does buffer c w
  | seek offset whence => exact seek_does offset whence c w.transport
  | tell => exact .nothing
  | close => exact close_does c w.transport

/-! ## Runs -/

/-- A channel that has just been opened. -/
inductive IsNew : Channel H → Prop
  | adaptive (object : ObjectHandle) (options : ReadOptions) : IsNew (.adaptive object options)
  | simple (object : ObjectHandle) (options : ReadOptions) : IsNew (.simple object options)

theorem IsNew.range {c : Channel H} (h : IsNew c) : c.range = none := by cases h <;> rfl

theorem IsNew.closed {c : Channel H} (h : IsNew c) : c.closed = false := by cases h <;> rfl

theorem IsNew.position {c : Channel H} (h : IsNew c) : c.position = 0 := by cases h <;> rfl

/-- The states of a new channel on an object and of what it works with, after any operations. -/
inductive Reached (src : Source σ H ρ) (object : ObjectHandle) (w₀ : World σ ρ) : Channel H → World σ ρ → Prop
  | new {c} (hnew : IsNew c) (hobject : c.object = object) : Reached src object w₀ c w₀
  | step {c w} (before : Reached src object w₀ c w) (n : Nat) (operation : Operation) :
    Reached src object w₀ (c.perform src n operation w).2.1 (c.perform src n operation w).2.2

/-- A property of a channel and its transport that what operations do keeps. -/
structure Invariant (t : Transport σ H) (P : Channel H → σ → Prop) : Prop where
  deliver : ∀ {c s} (n want : Nat) (gap : Nat → Nat → ByteArray), P c s → c.closed = false → 0 < want →
    P (Channel.deliver t n want gap c s).2.1 (Channel.deliver t n want gap c s).2.2
  moveTo : ∀ {c s} {target : Int}, P c s → c.closed = false → 0 ≤ target → target ≤ c.object.size →
    P (c.moveTo t target s).1 (c.moveTo t target s).2
  close : ∀ {c s}, P c s → c.closed = false → P (c.close t s).1 (c.close t s).2

variable {P : Channel H → σ → Prop}

/-- Every operation keeps an invariant. -/
theorem Invariant.perform (hP : Invariant src.transport P) {c : Channel H} {w : World σ ρ} (h : P c w.transport)
    (n : Nat) (operation : Operation) :
    P (c.perform src n operation w).2.1 (c.perform src n operation w).2.2.transport := by
  generalize hc : (c.perform src n operation w).2.1 = c'
  generalize hs : (c.perform src n operation w).2.2.transport = s'
  have hdoes := @perform_does _ _ _ src n operation c w
  rw [hc, hs] at hdoes
  cases hdoes with
  | nothing => exact h
  | delivers hopen want gap hwant => exact hP.deliver n want gap h hopen hwant
  | moves hopen target h0 hle => exact hP.moveTo h hopen h0 hle
  | closes hopen => exact hP.close h hopen

/-- What holds of new channels and is kept holds of all that is reached. -/
theorem Invariant.reached (hP : Invariant src.transport P) {object : ObjectHandle} {w₀ w : World σ ρ} {c : Channel H}
    (hnew : ∀ c₀, IsNew c₀ → c₀.object = object → P c₀ w₀.transport) (h : Reached src object w₀ c w) :
    P c w.transport := by
  induction h with
  | new hn ho => exact hnew _ hn ho
  | step _ n operation ih => exact hP.perform ih n operation

/-- A run does the first operation and then the others. -/
theorem run_cons (operation : Operation) (operations : List Operation) (c : Channel H) (w : World σ ρ) :
    run src n (operation :: operations) c w =
      ((c.perform src n operation w).1 ::
        (run src n operations (c.perform src n operation w).2.1 (c.perform src n operation w).2.2).1,
        (run src n operations (c.perform src n operation w).2.1 (c.perform src n operation w).2.2).2) := rfl

/-- A run does some operations and then the others. -/
theorem run_append (operations more : List Operation) (c : Channel H) (w : World σ ρ) :
    run src n (operations ++ more) c w =
      ((run src n operations c w).1 ++
        (run src n more (run src n operations c w).2.1 (run src n operations c w).2.2).1,
        (run src n more (run src n operations c w).2.1 (run src n operations c w).2.2).2) := by
  induction operations generalizing c w with
  | nil => rfl
  | cons operation operations ih =>
    rw [List.cons_append, run_cons, run_cons, ih]
    rfl

/-- Every run keeps an invariant. -/
theorem Invariant.run (hP : Invariant src.transport P) {c : Channel H} {w : World σ ρ} (h : P c w.transport) (n : Nat)
    (operations : List Operation) :
    P (Channel.run src n operations c w).2.1 (Channel.run src n operations c w).2.2.transport := by
  induction operations generalizing c w with
  | nil => exact h
  | cons operation operations ih =>
    rw [run_cons]
    exact ih (hP.perform h n operation)

/-- What a run comes to is reached. -/
theorem Reached.run {object : ObjectHandle} {w₀ w : World σ ρ} {c : Channel H} (h : Reached src object w₀ c w)
    (n : Nat) (operations : List Operation) :
    Reached src object w₀ (Channel.run src n operations c w).2.1 (Channel.run src n operations c w).2.2 := by
  induction operations generalizing c w with
  | nil => exact h
  | cons operation operations ih =>
    rw [run_cons]
    exact ih (h.step n operation)

/-! ## Closed channels -/

theorem dropRange_range (t : Transport σ H) (c : Channel H) (s : σ) : (c.dropRange t s).1.range = none := by
  cases h : c.range with
  | none => rw [dropRange_of_none h]; exact h
  | some r => rw [dropRange_of_range h]

theorem dropRange_sameAs (t : Transport σ H) (c : Channel H) (s : σ) :
    SameAs (c.dropRange t s).1 c ∧ (c.dropRange t s).1.position = c.position := by
  cases h : c.range with
  | none => rw [dropRange_of_none h]; exact ⟨.refl c, rfl⟩
  | some r => rw [dropRange_of_range h]; exact ⟨⟨rfl, rfl, rfl⟩, rfl⟩

theorem close_of_open {t : Transport σ H} {c : Channel H} {s : σ} (hopen : c.closed = false) :
    c.close t s = ({ (c.dropRange t s).1 with closed := true }, (c.dropRange t s).2) := by
  unfold close
  rw [if_neg (by simp [hopen])]

/-- Moving keeps the range, but a simple channel that moves to another position drops it. -/
theorem moveTo_eq (t : Transport σ H) (target : Int) (c : Channel H) (s : σ) :
    ((c.sizing = .wholeObject → target = c.position) ∧ c.moveTo t target s = ({ c with position := target }, s)) ∨
    (c.sizing = .wholeObject ∧
      c.moveTo t target s = ({ (c.dropRange t s).1 with position := target }, (c.dropRange t s).2)) := by
  unfold moveTo
  split
  · rename_i h
    exact .inl ⟨by simp [h], rfl⟩
  · rename_i h
    split
    · rename_i heq
      subst heq
      exact .inl ⟨fun _ => rfl, rfl⟩
    · exact .inr ⟨h, rfl⟩

theorem moveTo_self (t : Transport σ H) (c : Channel H) (s : σ) : c.moveTo t c.position s = (c, s) := by
  unfold moveTo
  split
  · rfl
  · rw [if_pos rfl]

/-- A simple channel that still has a range has not moved. -/
theorem moveTo_isSome {target : Int} {c : Channel H} {s : σ} (hsimple : c.sizing = .wholeObject)
    (hr : (c.moveTo t target s).1.range.isSome) : target = c.position ∧ c.range.isSome := by
  by_cases htarget : target = c.position
  · subst htarget
    rw [moveTo_self] at hr
    exact ⟨rfl, hr⟩
  · rcases moveTo_eq t target c s with ⟨hsame, -⟩ | ⟨-, hdropped⟩
    · exact absurd (hsame hsimple) htarget
    · rw [hdropped] at hr
      dsimp only at hr
      rw [dropRange_range] at hr
      cases hr

theorem moveTo_sameAs (t : Transport σ H) (target : Int) (c : Channel H) (s : σ) :
    SameAs (c.moveTo t target s).1 c ∧ (c.moveTo t target s).1.position = target := by
  rcases moveTo_eq t target c s with ⟨-, h⟩ | ⟨-, h⟩
  · rw [h]
    exact ⟨⟨rfl, rfl, rfl⟩, rfl⟩
  · rw [h]
    have hd := (dropRange_sameAs t c s).1
    exact ⟨⟨hd.object, hd.options, hd.closed⟩, rfl⟩

/-- A seek from the start of the object to a position in it moves there. -/
theorem seek_start {t : Transport σ H} {offset : Int} {c : Channel H} {s : σ} (hopen : c.closed = false)
    (h0 : 0 ≤ offset) (hle : offset ≤ c.object.size) : c.seek t offset 0 s = (.ok offset, c.moveTo t offset s) := by
  unfold seek
  rw [if_neg (by simp [hopen]), resolveSeek_start h0 hle]

/-- That a closed channel has no range is kept. -/
theorem closed_invariant (t : Transport σ H) : Invariant t fun c _ => c.closed = true → c.range = none where
  deliver {c s} n want gap _ hopen _ h := by
    rw [(delivers_deliver n want gap c s).sameAs.closed, hopen] at h
    cases h
  moveTo {c s target} _ hopen _ _ h := by
    rw [(moveTo_sameAs t target c s).1.closed, hopen] at h
    cases h
  close {c s} _ hopen _ := by
    rw [close_of_open hopen]
    exact dropRange_range t c s

/-- An operation on a closed channel changes nothing. -/
theorem perform_of_closed {c : Channel H} (hc : c.closed = true) (operation : Operation) (w : World σ ρ) :
    (c.perform src n operation w).2 = (c, w) := by
  cases operation <;> simp [perform, read, readInto, seek, close, hc]

theorem perform_close_closed (c : Channel H) (w : World σ ρ) : (c.perform src n .close w).2.1.closed = true := by
  show (c.close src.transport w.transport).1.closed = true
  unfold close
  split
  · assumption
  · rfl

end RangeRead.Channel
