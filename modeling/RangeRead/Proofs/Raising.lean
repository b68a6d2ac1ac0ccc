import RangeRead.Proofs.Channel.Incidents
import RangeRead.Proofs.Frugality
import RangeRead.Proofs.PlainFile
import RangeRead.Proofs.Transport.Scripted

/-!
# Which error a read raises

What goes wrong during a read settles how it comes out (`Fares`, `Delivers.fares`), over every transport that counts
what it was asked for. A range that cannot be opened or pinned is raised as the error of an opening, with its cause;
what a read of a range raises is raised as it is; and an end that is told too early is raised as such. Without any of
these the read returns. They exclude one another, and a range that ends while it is skipped is none of them, as little
as one that cannot be closed (`raises_exactly`).

Ranges are not to raise errors of the library's own classes (`ReadError.IsOwn`), which could not be told from its own.
-/

namespace RangeRead

variable {σ H ρ : Type} {t : Transport σ H} {o : ObjectHandle} {recorder : Option (Recorder ρ)} {memory : Nat}

/-! ## Errors of the library -/

/-- The error is of a class of read channel errors. -/
def ReadError.IsOwn (e : ReadError) : Prop := ∃ kind ∈ e.statedKind, ErrorKind.readChannel ∈ kind.families

instance (e : ReadError) : Decidable e.IsOwn := inferInstanceAs (Decidable (∃ kind ∈ e.statedKind, _))

/-- The error of an opening that comes from another error, and is shown so if it can be stated. -/
def ReadError.IsOpening (e cause : ReadError) : Prop :=
  e.origin = some cause ∧ (e.canBeStated = true → e.kind = some .transportOpen ∧ e.cause = some cause)

/-- The error of an end that was told too early, and is shown so if it can be stated. -/
def ReadError.IsCutShort (e : ReadError) : Prop :=
  e.statedKind = some .unexpectedEndOfStream ∧ (e.canBeStated = true → e.kind = some .unexpectedEndOfStream)

/-- Only the errors of an opening come from other errors. -/
theorem ReadError.statedKind_of_origin {e cause : ReadError} (h : e.origin = some cause) :
    e.statedKind = some .transportOpen := by
  cases e with
  | notOpened => rfl
  | notPinned => rfl
  | _ => cases h

theorem ReadError.isOpening_iff {e cause : ReadError} : e.IsOpening cause ↔ e.origin = some cause := by
  refine ⟨fun h => h.1, fun h => ⟨h, fun hstated => ?_⟩⟩
  exact ⟨(if_pos hstated).trans (statedKind_of_origin h), (if_pos hstated).trans h⟩

theorem ReadError.isCutShort_iff {e : ReadError} :
    e.IsCutShort ↔ e.statedKind = some .unexpectedEndOfStream :=
  ⟨fun h => h.1, fun h => ⟨h, fun hstated => (if_pos hstated).trans h⟩⟩

theorem ReadError.IsOpening.isOwn {e cause : ReadError} (h : e.IsOpening cause) : e.IsOwn :=
  ⟨_, statedKind_of_origin h.1, by decide⟩

theorem ReadError.IsCutShort.isOwn {e : ReadError} (h : e.IsCutShort) : e.IsOwn := ⟨_, h.1, by decide⟩

/-- No read raised an error of the library. -/
def Incident.IsForeign : Incident → Prop
  | notRead error => ¬error.IsOwn
  | notOpened _ | endedEarly | endedInSkip => True

instance : (incident : Incident) → Decidable incident.IsForeign
  | .notRead error => inferInstanceAs (Decidable (¬error.IsOwn))
  | .notOpened _ | .endedEarly | .endedInSkip => isTrue trivial

namespace Incident.Raises

variable {incident : Incident} {e : ReadError} (h : Raises o incident e)
include h

/-- A range that ends while it is skipped raises nothing. -/
theorem ne_endedInSkip : incident ≠ .endedInSkip := by cases h <;> nofun

variable (hforeign : incident.IsForeign)

include hforeign in
/-- The error of an opening stands for a range that could not be opened or pinned. -/
theorem isOpening_iff (cause : ReadError) : e.IsOpening cause ↔ incident = .notOpened cause := by
  cases h with
  | notOpened => simp [ReadError.isOpening_iff, ReadError.origin]
  | notPinned => simp [ReadError.isOpening_iff, ReadError.origin]
  | notRead => exact ⟨fun hopening => absurd hopening.isOwn hforeign, nofun⟩
  | rangeCutShort => exact ⟨fun hopening => absurd hopening.1 nofun, nofun⟩
  | objectCutShort => exact ⟨fun hopening => absurd hopening.1 nofun, nofun⟩

include hforeign in
/-- The error of an end stands for one that was told too early. -/
theorem isCutShort_iff : e.IsCutShort ↔ incident = .endedEarly := by
  rw [ReadError.isCutShort_iff]
  cases h with
  | notOpened => exact ⟨nofun, nofun⟩
  | notPinned => exact ⟨nofun, nofun⟩
  | notRead => exact ⟨fun hcut => absurd (ReadError.isCutShort_iff.mpr hcut).isOwn hforeign, nofun⟩
  | rangeCutShort => exact ⟨fun _ => rfl, fun _ => rfl⟩
  | objectCutShort => exact ⟨fun _ => rfl, fun _ => rfl⟩

/-- Any other error is that of a read. -/
theorem eq_iff {error : ReadError} (hother : ¬error.IsOwn) : e = error ↔ incident = .notRead error := by
  have hown : e.IsOwn → (e = error ↔ False) := fun hown => ⟨fun heq => hother (heq ▸ hown), False.elim⟩
  cases h with
  | notRead => exact ⟨congrArg _, fun heq => Incident.notRead.inj heq⟩
  | notOpened => exact (hown ⟨_, rfl, by decide⟩).trans ⟨False.elim, nofun⟩
  | notPinned => exact (hown ⟨_, rfl, by decide⟩).trans ⟨False.elim, nofun⟩
  | rangeCutShort => exact (hown ⟨_, rfl, by decide⟩).trans ⟨False.elim, nofun⟩
  | objectCutShort => exact (hown ⟨_, rfl, by decide⟩).trans ⟨False.elim, nofun⟩

end Incident.Raises

namespace Channel

/-! ## How reads fare -/

/-- How a read at `position` fares that asked for the windows. A range may end while it is skipped, and then one is
asked for at the position. Besides, one thing at most goes wrong, which is raised. -/
inductive Fares {α : Type} (o : ObjectHandle) (position : Int) (a : Outcome ReadError α) (windows : List (Int × Int)) :
    List Incident → Prop
  | directly {raised} (h : Settles o a raised) : Fares o position a windows raised
  | afterSkip {raised} (hopened : a ≠ .stalled → ∃ stop, windows.head? = some (position, stop))
      (h : Settles o a raised) : Fares o position a windows (.endedInSkip :: raised)

section Maps

variable {α β : Type} {a : Outcome ReadError α} {position : Int} {windows : List (Int × Int)}
  {incidents : List Incident}

theorem Settles.map (h : Settles o a incidents) (f : α → β) : Settles o (a.map f) incidents := by
  cases h with
  | returns hreturns =>
    refine .returns fun e he => ?_
    cases a with
    | done x => cases he
    | failed e' => exact hreturns e' rfl
    | stalled => cases he
  | raises hraises => exact .raises hraises

/-- What is made of the answer makes no difference. -/
theorem Fares.map (h : Fares o position a windows incidents) (f : α → β) :
    Fares o position (a.map f) windows incidents := by
  cases h with
  | directly hsettles => exact .directly (hsettles.map f)
  | afterSkip hopened hsettles =>
    exact .afterSkip (fun hends => hopened fun hstalled => hends ((map_eq_stalled f).mpr hstalled)) (hsettles.map f)

end Maps

/-- A filling behind what was brought to the position. -/
theorem Fills.fares (ht : t.Counts) {n want : Nat} {gap : Nat → Nat → ByteArray} {c c₁ c' : Channel (Numbered H)}
    {s s₁ s' : Logged σ} {a : Outcome ReadError Filling} (h : Fills t.logged want gap n {} c₁ s₁ a c' s')
    (hreposition : reposition t.logged n c s = (.done (), c₁, s₁)) (hs : Stands c s) :
    ∃ windows incidents, s.Meets c.position c.object.size s' windows incidents ∧
      Fares c.object c.position a windows incidents := by
  obtain ⟨hsame, hposition⟩ := reposition_sameAs (t := t.logged) n c s
  rw [hreposition] at hsame hposition
  obtain ⟨skipped, hskipped, hs₁, hcomes⟩ := reposition_meets ht hreposition hs
  have hfills : Aligned c₁ → ∃ windows incidents, s₁.Meets c.position c.object.size s' windows incidents ∧
      Settles c.object a incidents ∧
      (c₁.range = none → a ≠ .stalled → ∃ stop, windows.head? = some (c₁.position, stop)) :=
    fun ha => h.meets ht hsame.object hs₁ ha (Int.le_of_eq hposition.symm)
  cases hcomes with
  | dropped hr =>
    obtain ⟨windows, incidents, hmeets, hsettles, hopened⟩ := hfills (.of_none hr)
    rw [← hposition]
    exact ⟨windows, .endedInSkip :: incidents, hposition ▸ hskipped.trans hmeets, .afterSkip (hopened hr) hsettles⟩
  | arrived ha =>
    obtain ⟨windows, incidents, hmeets, hsettles, -⟩ := hfills ha
    exact ⟨windows, incidents, hskipped.trans hmeets, .directly hsettles⟩

/-- What goes wrong settles how a delivery comes out. -/
theorem Delivers.fares (ht : t.Counts) {n want : Nat} {gap : Nat → Nat → ByteArray} {c c' : Channel (Numbered H)}
    {s s' : Logged σ} {a : Outcome ReadError Filling} (h : Delivers t.logged n want gap c s a c' s')
    (hs : Stands c s) :
    ∃ windows incidents, s.Meets c.position c.object.size s' windows incidents ∧
      Fares c.object c.position a windows incidents := by
  cases h with
  | notSkipped hreposition =>
    obtain ⟨incidents, hmeets, -, hcomes⟩ := reposition_meets ht hreposition hs
    cases hcomes
    exact ⟨[], _, hmeets, .directly (.raises .notRead)⟩
  | stalled hreposition =>
    obtain ⟨incidents, hmeets, -, hcomes⟩ := reposition_meets ht hreposition hs
    cases hcomes
    exact ⟨[], [], hmeets, .directly (.returns nofun)⟩
  | failed hreposition hfills => exact hfills.fares ht hreposition hs
  | filled hreposition hfills _ => exact hfills.fares ht hreposition hs

/-! ## Which error is raised -/

/-- Which error a read raised, or whether it returned, by what went wrong in it. -/
structure Raised {α : Type} (position : Int) (a : Outcome ReadError α) (windows : List (Int × Int))
    (incidents : List Incident) : Prop where
  opening : ∀ cause, (∃ e, a = .failed e ∧ e.IsOpening cause) ↔ .notOpened cause ∈ incidents
  reading : ∀ error, ¬error.IsOwn → (a = .failed error ↔ .notRead error ∈ incidents)
  ending : (∃ e, a = .failed e ∧ e.IsCutShort) ↔ .endedEarly ∈ incidents
  returning : (∃ x, a = .done x) ↔ ∀ incident ∈ incidents, incident = .endedInSkip
  /-- No two of these go together. -/
  once : (incidents.filter (· ≠ .endedInSkip)).length ≤ 1
  /-- After a range has ended while it was skipped, the next one is asked for at the position. -/
  reopened : .endedInSkip ∈ incidents → ∃ stop, windows.head? = some (position, stop)

section Raised

variable {α : Type} {a : Outcome ReadError α} {position : Int} {windows : List (Int × Int)} {incidents : List Incident}

/-- An incident that ends the read raises its error and no other. -/
theorem Settles.raised (h : Settles o a incidents) (hforeign : ∀ incident ∈ incidents, incident.IsForeign)
    (hends : a ≠ .stalled) : Raised position a windows incidents := by
  cases h with
  | returns hreturns =>
    have hnone : ∀ {P : ReadError → Prop}, ¬∃ e, a = .failed e ∧ P e := fun ⟨e, he, _⟩ => hreturns e he
    refine ⟨fun cause => ⟨fun hopening => absurd hopening hnone, nofun⟩,
      fun error _ => ⟨fun he => absurd he (hreturns error), nofun⟩, ⟨fun hcut => absurd hcut hnone, nofun⟩,
      ⟨fun _ => nofun, fun _ => ?_⟩, Nat.zero_le 1, nofun⟩
    cases a with
    | done x => exact ⟨x, rfl⟩
    | failed e => exact absurd rfl (hreturns e)
    | stalled => exact absurd rfl hends
  | @raises incident e hraises =>
    have hforeign := hforeign incident (List.mem_singleton.mpr rfl)
    refine ⟨fun cause => ?_, fun error hother => ?_, ?_, ⟨nofun, fun hall => ?_⟩, ?_, fun hskip => ?_⟩
    · rw [List.mem_singleton, eq_comm (b := incident), ← hraises.isOpening_iff hforeign]
      exact ⟨fun ⟨e', he', hopening⟩ => by cases he'; exact hopening, fun hopening => ⟨e, rfl, hopening⟩⟩
    · rw [List.mem_singleton, eq_comm (b := incident), ← hraises.eq_iff hother]
      exact ⟨fun heq => by cases heq; rfl, congrArg _⟩
    · rw [List.mem_singleton, eq_comm (b := incident), ← hraises.isCutShort_iff hforeign]
      exact ⟨fun ⟨e', he', hcut⟩ => by cases he'; exact hcut, fun hcut => ⟨e, rfl, hcut⟩⟩
    · exact absurd (hall incident (List.mem_singleton.mpr rfl)) hraises.ne_endedInSkip
    · exact List.length_filter_le _ [incident]
    · exact absurd (List.mem_singleton.mp hskip).symm hraises.ne_endedInSkip

/-- A range that ended while it was skipped makes no difference to what is raised. -/
theorem Raised.afterSkip (h : Raised position a windows incidents)
    (hopened : ∃ stop, windows.head? = some (position, stop)) :
    Raised position a windows (.endedInSkip :: incidents) where
  opening cause := by
    rw [List.mem_cons, or_iff_right nofun]
    exact h.opening cause
  reading error hother := by
    rw [List.mem_cons, or_iff_right nofun]
    exact h.reading error hother
  ending := by
    rw [List.mem_cons, or_iff_right nofun]
    exact h.ending
  returning := by
    rw [List.forall_mem_cons, and_iff_right rfl]
    exact h.returning
  once := h.once
  reopened _ := hopened

/-- What went wrong in a read that came to its end is what it raised. -/
theorem Fares.raised (h : Fares o position a windows incidents) (hforeign : ∀ incident ∈ incidents, incident.IsForeign)
    (hends : a ≠ .stalled) : Raised position a windows incidents := by
  cases h with
  | directly hsettles => exact hsettles.raised hforeign hends
  | afterSkip hopened hsettles =>
    have hraised : Raised position a windows _ := hsettles.raised (List.forall_mem_cons.mp hforeign).2 hends
    exact hraised.afterSkip (hopened hends)

end Raised

/-- **Which error a read raises**, on every open channel and over every transport that counts what it was asked for and
whose ranges raise no error of the library itself, with a recorder that accepts. If every reply brings at least one
byte, it is known beforehand with how much patience the read comes to its end. The class of an error is told where
the error can be stated; it cannot only where an offset or the size of the object has over 4300 digits
(`Text.maxDigits`). -/
theorem raises_exactly (ht : t.Counts) (haccepts : Source.Accepts ⟨t.logged, recorder, memory⟩) {s : σ} {r : ρ}
    {c : Channel (Numbered H)} {w : World (Logged σ) ρ}
    (h : Reached ⟨t.logged, recorder, memory⟩ o ⟨.start s, r⟩ c w) (hopen : c.closed = false) {buffer : ByteArray}
    (hbuffer : 0 < buffer.size) (n : Nat) :
    let src : Source (Logged σ) (Numbered H) ρ := ⟨t.logged, recorder, memory⟩
    let after := c.readInto src n buffer w
    let made := after.2.2.transport.calls.drop w.transport.calls.length
    let incidents := Call.incidents c.position c.object.size w.transport.calls made
    after.2.2.transport.calls = w.transport.calls ++ made ∧
      ((∀ reply ∈ Call.replies made, ¬reply.IsNothing) → c.skipLength + buffer.size + 2 ≤ n → after.1 ≠ .stalled) ∧
      ((∀ incident ∈ incidents, incident.IsForeign) → after.1 ≠ .stalled →
        Raised c.position after.1 (Call.windows made) incidents) := by
  intro src after made incidents
  have hs : Stands c w.transport := (stands_invariant t).reached (fun _ hnew _ => .of_none hnew.range) h
  have hengages : c.Engages src.memory (.readInto buffer) := ⟨hopen, hbuffer, Int.natCast_nonneg memory⟩
  have hanswer : after.1 = _ := readInto_answer haccepts hengages w
  have htransport : after.2.2.transport = _ := readInto_transport hengages w
  have hdelivers := delivers_deliver (t := t.logged) n buffer.size buffer.extract c w.transport
  obtain ⟨_, _, ⟨calls, hcalls, rfl, rfl⟩, hfares⟩ := hdelivers.fares ht hs
  obtain ⟨_, _, ⟨calls', hcalls', rfl, rfl⟩, hfrugal⟩ := hdelivers.frugal ht hbuffer
  obtain rfl := List.append_cancel_left (hcalls.symm.trans hcalls')
  have hall : after.2.2.transport.calls = w.transport.calls ++ calls :=
    (congrArg Logged.calls htransport).trans hcalls
  have hmade : made = calls := by
    show List.drop _ after.2.2.transport.calls = calls
    rw [hall, List.drop_left]
  have hincidents : incidents = Call.incidents c.position c.object.size w.transport.calls calls := by
    rw [← hmade]
  rw [hincidents, hmade, hanswer]
  refine ⟨hall, fun hbrings hn hstalled => ?_, fun hforeign hends => (hfares.map _).raised hforeign hends⟩
  exact hfrugal.ends hbrings hn ((map_eq_stalled _).mp hstalled)

/-- So it is where a range ends while it is skipped and cannot be closed, and the next one is refused: the refusal is
all that is raised. -/
theorem raises_exactly_refused :
    let object : ObjectHandle := { path := "object", size := 8 }
    let refusal : ReadError := .outside ⟨"TimeoutError", "no answer"⟩
    let t := Scripted.transport ⟨#[1, 2, 3, 4, 5, 6, 7, 8]⟩
    let src : Source (Logged (List Scripted.Turn)) (Numbered Scripted.Span) Unit := ⟨t.logged, none, 8⟩
    let before := run src 9 [.read (some 1), .seek 4 0] (adaptive object .standard)
      ⟨.start [.delivers 1, .ends, .fails (.outside ⟨"OSError", "lost"⟩), .fails refusal], ()⟩
    let after := before.2.1.readInto src 9 ⟨#[0, 0]⟩ before.2.2
    let made := after.2.2.transport.calls.drop before.2.2.transport.calls.length
    let incidents := Call.incidents before.2.1.position before.2.1.object.size before.2.2.transport.calls made
    after.1 = .failed (.notOpened 4 8 object refusal) ∧ incidents = [.endedInSkip, .notOpened refusal] ∧
      Raised before.2.1.position after.1 (Call.windows made) incidents :=
  ⟨by decide +kernel, by decide +kernel, (raises_exactly (Scripted.counts _) nofun
    ((Reached.new (.adaptive _ _) rfl).run 9 _) (by decide +kernel) (by decide) 9).2.2 (by decide +kernel)
    (by decide +kernel)⟩

end Channel

end RangeRead
