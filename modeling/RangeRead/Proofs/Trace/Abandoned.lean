import Mathlib.Data.List.Nodup
import Mathlib.Data.List.Pairwise
import RangeRead.Proofs.Trace.Opening
import RangeRead.Proofs.Transport.Scripted

/-!
# Ranges that are abandoned

An observer that refuses the record of a range makes its opening fail. If the range has been opened behind, nobody has
it then, so that it is never closed. Every other range is closed once, by the operation that opened it or when the
channel lets go of it (`accepted_closed`).

The `Ledger` of the calls of a channel sets them against the answers of the observer: the ranges that have been closed,
and then the one that is held, are the ranges whose records were accepted.
-/

namespace RangeRead

/-! ## Answers of an observer -/

/-- The state of an observer and the answers that it gave, in order. -/
structure Answered (κ : Type) where
  behind : κ
  answers : List (Except ReadError Unit) := []

/-- The observer that answers as another one does and remembers the answers. -/
def Observer.answering {κ : Type} (observer : Observer κ) : Observer (Answered κ) where
  onRequest record k :=
    let (answer, behind) := observer.onRequest record k.behind
    (answer, ⟨behind, k.answers ++ [answer]⟩)

/-- The numbers of the ranges that were opened and whose records were answered alike: accepted, or refused. -/
def Opening.answeredAs (accepted : Bool) (openings : List Opening) (answers : List (Except ReadError Unit)) :
    List Nat :=
  (openings.zip answers).filterMap fun shown => if shown.2.isOk = accepted then shown.1.number else none

namespace Opening

variable {openings : List Opening} {answers : List (Except ReadError Unit)}

/-- The answer to the record of one more range. -/
theorem answeredAs_snoc (accepted : Bool) (hshown : openings.length = answers.length) (opening : Opening)
    (answer : Except ReadError Unit) :
    answeredAs accepted (openings ++ [opening]) (answers ++ [answer]) =
      answeredAs accepted openings answers ++ (if answer.isOk = accepted then opening.number else none).toList := by
  unfold answeredAs
  rw [List.zip_append hshown, List.filterMap_append, List.zip_cons_cons, List.zip_nil_left]
  cases h : if answer.isOk = accepted then opening.number else none with
  | none => simp [h]
  | some number => simp [h]

/-- Every range that was opened was answered in one way or the other. -/
theorem mem_answeredAs (hshown : openings.length = answers.length) {opening : Opening} (hmem : opening ∈ openings)
    {number : Nat} (hnumber : opening.number = some number) :
    number ∈ answeredAs true openings answers ∨ number ∈ answeredAs false openings answers := by
  obtain ⟨i, hi, rfl⟩ := List.mem_iff_getElem.mp hmem
  have hpair : (openings[i], answers[i]) ∈ openings.zip answers := by
    rw [List.mem_iff_getElem]
    exact ⟨i, by rw [List.length_zip]; omega, List.getElem_zip⟩
  cases hok : answers[i].isOk with
  | true => exact .inl (List.mem_filterMap.mpr ⟨_, hpair, by simp [hok, hnumber]⟩)
  | false => exact .inr (List.mem_filterMap.mpr ⟨_, hpair, by simp [hok, hnumber]⟩)

end Opening

/-! ## Ledgers -/

/-- The calls on ranges, of which `opened` were opened, the answers of an observer to their records, and the range that
is held. -/
structure Ledger (calls : List Call) (opened : Nat) (answers : List (Except ReadError Unit)) (held : Option Nat) :
    Prop where
  numbering : Call.Numbering opened calls
  shown : (Call.openings calls).length = answers.length
  closed : Call.closings calls ++ held.toList = Opening.answeredAs true (Call.openings calls) answers
  /-- Nothing is done with a range whose record was not accepted. -/
  used : ∀ call ∈ calls, ∀ number, call.number? = some number →
    call.Opens number ∨ number ∈ Opening.answeredAs true (Call.openings calls) answers

namespace Ledger

variable {calls : List Call} {opened : Nat} {answers : List (Except ReadError Unit)}

theorem nil : Ledger [] 0 [] none where
  numbering := .nil
  shown := rfl
  closed := rfl
  used := by simp

/-- One more range was asked for, and its record answered. -/
theorem asked (h : Ledger calls opened answers none) {call : Call} {opening : Opening} (answer : Except ReadError Unit)
    {opened' : Nat} (hnumbering : Call.Numbering opened' (calls ++ [call])) (hopening : call.opening? = some opening)
    (hopens : ∀ number, call.number? = some number → call.Opens number) :
    Ledger (calls ++ [call]) opened' (answers ++ [answer]) (if answer.isOk then opening.number else none) := by
  obtain ⟨-, hshown, hclosed, hused⟩ := h
  have hopenings : Call.openings (calls ++ [call]) = Call.openings calls ++ [opening] := by
    rw [Call.openings_append]
    simp [Call.openings, hopening]
  have hclosings : Call.closings (calls ++ [call]) = Call.closings calls := by
    have hnone : call.closing? = none := by
      cases call with
      | closed _ _ => cases hopening
      | refused _ _ _ => rfl
      | opened _ _ _ => rfl
      | pinned _ _ _ _ => rfl
      | read _ _ _ => rfl
    rw [Call.closings_append]
    simp [Call.closings, hnone]
  refine ⟨hnumbering, ?_, ?_, ?_⟩
  · rw [hopenings, List.length_append, List.length_append, hshown]
    rfl
  · rw [hopenings, hclosings, Opening.answeredAs_snoc true hshown, ← hclosed]
    simp
  · intro earlier hmem number hnumber
    rw [hopenings, Opening.answeredAs_snoc true hshown, List.mem_append]
    rcases List.mem_append.mp hmem with hmem | hmem
    · rcases hused earlier hmem number hnumber with hopened | haccepted
      · exact .inl hopened
      · exact .inr (.inl haccepted)
    · rw [List.mem_singleton] at hmem
      subst hmem
      exact .inl (hopens number hnumber)

theorem refused (h : Ledger calls opened answers none) (start stop : Int) (error : ReadError)
    (answer : Except ReadError Unit) :
    Ledger (calls ++ [.refused start stop error]) opened (answers ++ [answer]) none := by
  have hasked := h.asked answer (h.numbering.snoc_refused start stop error) rfl (by simp [Call.number?])
  rwa [ite_self] at hasked

/-- The record of a range that was opened has been refused: nobody has the range. -/
theorem abandoned (h : Ledger calls opened answers none) (start stop : Int) (error : ReadError) :
    Ledger (calls ++ [.opened opened start stop]) (opened + 1) (answers ++ [.error error]) none :=
  h.asked (.error error) (h.numbering.snoc_opened start stop) rfl fun number hnumber => by
    cases hnumber
    exact ⟨start, stop, rfl⟩

/-- It has been accepted: the range is held. -/
theorem accepted (h : Ledger calls opened answers none) (start stop : Int) :
    Ledger (calls ++ [.opened opened start stop]) (opened + 1) (answers ++ [.ok ()]) (some opened) :=
  h.asked (.ok ()) (h.numbering.snoc_opened start stop) rfl fun number hnumber => by
    cases hnumber
    exact ⟨start, stop, rfl⟩

section Held

variable {number : Nat} (h : Ledger calls opened answers (some number))
include h

theorem held_mem : number ∈ Opening.answeredAs true (Call.openings calls) answers := by
  rw [← h.closed]
  simp

theorem held_lt : number < opened := by
  obtain ⟨shown, hmem, hnumber⟩ := List.mem_filterMap.mp h.held_mem
  split at hnumber
  · exact h.numbering.opening_lt (List.of_mem_zip hmem).1 hnumber
  · cases hnumber

/-- The range that is held may be used. -/
theorem uses {uses : List Call} (huses : ∀ call ∈ uses, call.Uses number) :
    Ledger (calls ++ uses) opened answers (some number) := by
  have hopenings := Call.openings_uses huses
  refine ⟨h.numbering.append hopenings fun call hcall m hm => ?_, ?_, ?_, fun call hcall m hm => ?_⟩
  · rw [(huses call hcall).number?] at hm
    cases hm
    exact h.held_lt
  · rw [Call.openings_append, hopenings, List.append_nil]
    exact h.shown
  · rw [Call.openings_append, hopenings, List.append_nil, Call.closings_append, Call.closings_uses huses,
      List.append_nil]
    exact h.closed
  · rw [Call.openings_append, hopenings, List.append_nil]
    rcases List.mem_append.mp hcall with hcall | hcall
    · exact h.used call hcall m hm
    · rw [(huses call hcall).number?] at hm
      cases hm
      exact .inr h.held_mem

/-- It may be closed, and is not held any more. -/
theorem closes (answer : Except ReadError Unit) : Ledger (calls ++ [.closed number answer]) opened answers none := by
  have hopenings : Call.openings (calls ++ [.closed number answer]) = Call.openings calls := by
    rw [Call.openings_append]
    exact List.append_nil _
  have hclosings : Call.closings (calls ++ [.closed number answer]) = Call.closings calls ++ [number] := by
    rw [Call.closings_append]
    rfl
  refine ⟨h.numbering.snoc rfl rfl h.held_lt, ?_, ?_, fun call hcall m hm => ?_⟩
  · rw [hopenings]
    exact h.shown
  · rw [hopenings, hclosings, ← h.closed]
    simp
  · rw [hopenings]
    rcases List.mem_append.mp hcall with hcall | hcall
    · exact h.used call hcall m hm
    · rw [List.mem_singleton] at hcall
      subst hcall
      cases hm
      exact .inr h.held_mem

end Held

/-! ## What a ledger says -/

variable {held : Option Nat} (h : Ledger calls opened answers held)
include h

/-- The ranges of a ledger have different numbers, each with its answer. -/
theorem distinct :
    ((Call.openings calls).zip answers).Pairwise fun shown shown' => shown.1.Distinct shown'.1 := by
  have hfst : (((Call.openings calls).zip answers).map Prod.fst) = Call.openings calls :=
    List.map_fst_zip (Nat.le_of_eq h.shown)
  have honce := h.numbering.once
  rw [← hfst, List.pairwise_map] at honce
  exact honce

theorem accepted_nodup : (Opening.answeredAs true (Call.openings calls) answers).Nodup := by
  refine List.pairwise_filterMap.mpr (h.distinct.imp ?_)
  intro earlier later hdistinct number hnumber number' hnumber' hsame
  subst hsame
  split at hnumber
  · split at hnumber'
    · exact hdistinct number hnumber hnumber'
    · cases hnumber'
  · cases hnumber

/-- No record is both accepted and refused. -/
theorem not_accepted {number : Nat} (hrefused : number ∈ Opening.answeredAs false (Call.openings calls) answers) :
    number ∉ Opening.answeredAs true (Call.openings calls) answers := by
  intro haccepted
  obtain ⟨shown, hmem, hnumber⟩ := List.mem_filterMap.mp hrefused
  obtain ⟨shown', hmem', hnumber'⟩ := List.mem_filterMap.mp haccepted
  split at hnumber
  · rename_i hok
    split at hnumber'
    · rename_i hok'
      have hne : shown ≠ shown' := by
        rintro rfl
        rw [hok] at hok'
        cases hok'
      have : Std.Symm fun shown shown' : Opening × Except ReadError Unit => shown.1.Distinct shown'.1 :=
        ⟨fun _ _ => Opening.Distinct.symm⟩
      exact h.distinct.forall hmem hmem' hne number hnumber hnumber'
    · cases hnumber'
  · cases hnumber

end Ledger

/-! ## What becomes of ranges -/

/-- What has become of the ranges that the calls opened, of which `held` is held, where an observer answered so to their
records. -/
structure Released (calls : List Call) (answers : List (Except ReadError Unit)) (held : Option Nat) : Prop where
  /-- The observer was shown every range that was asked for. -/
  shown : (Call.openings calls).length = answers.length
  answered : ∀ call ∈ calls, ∀ number, call.Opens number →
    number ∈ Opening.answeredAs true (Call.openings calls) answers ∨
      number ∈ Opening.answeredAs false (Call.openings calls) answers
  /-- A range whose record was accepted has been closed once, unless it is held. -/
  accepted : ∀ number ∈ Opening.answeredAs true (Call.openings calls) answers,
    (Call.closings calls).count number = if held = some number then 0 else 1
  held_accepted : ∀ number, held = some number → number ∈ Opening.answeredAs true (Call.openings calls) answers
  /-- With a range whose record was refused nothing was done but to open it. -/
  refused : ∀ number ∈ Opening.answeredAs false (Call.openings calls) answers,
    ∀ call ∈ calls, call.number? = some number → call.Opens number

theorem Ledger.released {calls : List Call} {opened : Nat} {answers : List (Except ReadError Unit)}
    {held : Option Nat} (h : Ledger calls opened answers held) : Released calls answers held where
  shown := h.shown
  answered := by
    rintro call hcall number ⟨start, stop, rfl⟩
    exact Opening.mem_answeredAs h.shown (List.mem_filterMap.mpr ⟨_, hcall, rfl⟩) rfl
  accepted := by
    intro number haccepted
    have hcount := List.count_eq_one_of_mem h.accepted_nodup haccepted
    rw [← h.closed, List.count_append] at hcount
    cases held with
    | none => simpa using hcount
    | some m =>
      by_cases hm : m = number
      · subst hm
        simpa using hcount
      · simpa [hm] using hcount
  held_accepted := by
    rintro number rfl
    exact h.held_mem
  refused := by
    intro number hrefused call hcall hnumber
    exact (h.used call hcall number hnumber).resolve_right (h.not_accepted hrefused)

/-! ## Channels -/

variable {σ H κ ρ : Type} {t : Transport σ H} {clock : Nat → Float} {observer : Observer κ} {o : ObjectHandle}

/-- The custody of the ranges of a traced transport over a log, in terms of their ledger. -/
def ledgerCustody (σ H κ : Type) : Custody (Traced (Logged σ) (Answered κ)) (TracedRange (Numbered H)) where
  idle s := Ledger s.behind.calls s.behind.opened s.observer.answers none
  fresh h s := Ledger s.behind.calls s.behind.opened s.observer.answers (some h.behind.number)
  held h s := Ledger s.behind.calls s.behind.opened s.observer.answers (some h.behind.number)

/-- The answer of the observer is the last of its answers. -/
theorem Traced.Records.answers_eq {start stop : Int} {s s' : Traced σ (Answered κ)} {record : RequestRecord}
    {shown : Except ReadError Unit}
    (h : Traced.Records (some observer.answering) o start stop s s' record shown) :
    s'.observer.answers = s.observer.answers ++ [shown] := by
  have hshown := h.shown_eq
  simp only [Transport.showRecord, Observer.answering, Prod.mk.injEq] at hshown
  obtain ⟨rfl, hobserver⟩ := hshown
  rw [← hobserver]

/-- A traced transport over a log keeps the ledger of its ranges. -/
theorem Transport.traced_keeps (t : Transport σ H) (clock : Nat → Float) (observer : Observer κ) :
    (t.logged.traced clock (some observer.answering)).Keeps (ledgerCustody σ H κ) where
  note_idle _ hs := hs
  note_held _ hs := hs
  opened {o start stop s h s'} hs heq := by
    cases TracedOpens.of_eq heq with
    | opened hrecords hopened hpins hcalls hnumber _ =>
      have hledger := (Ledger.accepted hs start stop).uses fun call hcall => (hpins call hcall).uses
      show Ledger s'.behind.calls s'.behind.opened s'.observer.answers (some h.behind.number)
      rw [hcalls, hopened, hrecords.answers_eq, hnumber]
      rwa [List.append_assoc] at hledger
  notOpened {o start stop s e s'} hs heq := by
    show Ledger s'.behind.calls s'.behind.opened s'.observer.answers none
    cases TracedOpens.of_eq heq with
    | refused hrecords hopened hcalls =>
      rw [hcalls, hopened, hrecords.answers_eq]
      exact Ledger.refused hs start stop _ _
    | abandoned hrecords hopened hcalls =>
      rw [hcalls, hopened, hrecords.answers_eq]
      exact Ledger.abandoned hs start stop _
    | notPinned hrecords hopened hpins hcalls =>
      have hledger := ((Ledger.accepted hs start stop).uses fun call hcall => (hpins call hcall).uses).closes
      rw [hcalls, hopened, hrecords.answers_eq]
      rw [List.append_assoc s.behind.calls [_]] at hledger
      exact hledger _
  read {h s want reply h' s'} hs heq := by
    obtain ⟨hread, -, hobserver, -⟩ := Transport.traced_read heq
    obtain ⟨hnumber, hopened, hcalls⟩ := Transport.logged_read hread
    have hledger : Ledger s.behind.calls s.behind.opened s.observer.answers (some h.behind.number) := by
      rcases hs with hs | hs
      · exact hs
      · exact hs
    show Ledger s'.behind.calls s'.behind.opened s'.observer.answers (some h'.behind.number)
    rw [hcalls, hopened, hobserver, hnumber]
    refine hledger.uses fun call hcall => ?_
    rw [List.mem_singleton] at hcall
    exact .inr ⟨_, _, hcall⟩
  close {h s} hs := Ledger.closes hs _

namespace Channel

variable {recorder : Option (Recorder ρ)} {memory : Nat}

/-- The number of the range that a channel holds. -/
def heldNumber (c : Channel (TracedRange (Numbered H))) : Option Nat := c.range.map fun r => r.handle.behind.number

/-- Between operations the ledger says which range the channel holds. -/
theorem reached_ledger {c : Channel (TracedRange (Numbered H))} {w : World (Traced (Logged σ) (Answered κ)) ρ} {s : σ}
    {trace : RequestTrace} {k : κ} {readings : Nat} {r₀ : ρ}
    (h : Reached ⟨t.logged.traced clock (some observer.answering), recorder, memory⟩ o
      ⟨⟨.start s, trace, ⟨k, []⟩, readings⟩, r₀⟩ c w) :
    Ledger w.transport.behind.calls w.transport.behind.opened w.transport.observer.answers c.heldNumber := by
  have hcustody : (ledgerCustody σ H κ).Of c.range w.transport := by
    refine (t.traced_keeps clock observer).custody_invariant.reached (fun c₀ hnew _ => ?_) h
    rw [hnew.range]
    exact Ledger.nil
  unfold heldNumber
  cases hr : c.range with
  | none =>
    rw [hr] at hcustody
    exact hcustody
  | some r =>
    rw [hr] at hcustody
    exact hcustody

/-- **A range whose record was accepted is closed once, and one whose record was refused is never closed**, whatever
the observer and the transport behind answer. After the channel has been closed no range is held. -/
theorem accepted_closed {c : Channel (TracedRange (Numbered H))} {w : World (Traced (Logged σ) (Answered κ)) ρ} {s : σ}
    {trace : RequestTrace} {k : κ} {readings : Nat} {r₀ : ρ}
    (h : Reached ⟨t.logged.traced clock (some observer.answering), recorder, memory⟩ o
      ⟨⟨.start s, trace, ⟨k, []⟩, readings⟩, r₀⟩ c w) :
    Released w.transport.behind.calls w.transport.observer.answers c.heldNumber ∧
      ∀ n, let after :=
        (c.perform ⟨t.logged.traced clock (some observer.answering), recorder, memory⟩ n .close w).2.2.transport
        Released after.behind.calls after.observer.answers none := by
  refine ⟨(reached_ledger h).released, fun n => ?_⟩
  have hafter := h.step n .close
  have hrange := (closed_invariant _).reached (fun c₀ hnew _ _ => hnew.range) hafter (perform_close_closed _ _)
  have hledger := reached_ledger hafter
  unfold heldNumber at hledger
  rw [hrange] at hledger
  exact hledger.released

/-- An observer that refuses the first record and accepts the others. -/
def refusingFirst : Observer Bool where
  onRequest _ first :=
    if first then (.error (.outside ⟨"RuntimeError", "callback failed"⟩), false) else (.ok (), false)

/-- A transport of four bytes with such an observer. -/
def refusingSource : Source (Traced (Logged (List Scripted.Turn)) (Answered Bool))
    (TracedRange (Numbered Scripted.Span)) Unit :=
  ⟨(Scripted.transport ⟨#[1, 2, 3, 4]⟩).logged.traced (fun _ => 0) (some refusingFirst.answering), none, 4⟩

/-- So it is where the first record is refused and the read is tried again: the first range is abandoned, and the
second one is held. -/
theorem accepted_closed_retry :
    let object : ObjectHandle := { path := "object", size := 4 }
    let after := run refusingSource 9 [.read (some 2), .read (some 2)] (adaptive object .standard)
      ⟨⟨.start [], {}, ⟨true, []⟩, 0⟩, ()⟩
    let calls := after.2.2.transport.behind.calls
    let answers := after.2.2.transport.observer.answers
    Opening.answeredAs false (Call.openings calls) answers = [0] ∧
      Opening.answeredAs true (Call.openings calls) answers = [1] ∧ after.2.1.heldNumber = some 1 ∧
      Released calls answers after.2.1.heldNumber := by
  have hnew : IsNew (adaptive { path := "object", size := 4 } .standard :
    Channel (TracedRange (Numbered Scripted.Span))) := .adaptive _ _
  have hstart : Reached refusingSource { path := "object", size := 4 } ⟨⟨.start [], {}, ⟨true, []⟩, 0⟩, ()⟩
    (adaptive { path := "object", size := 4 } .standard) ⟨⟨.start [], {}, ⟨true, []⟩, 0⟩, ()⟩ := .new hnew rfl
  exact ⟨by decide +kernel, by decide +kernel, by decide +kernel, (accepted_closed (hstart.run 9 _)).1⟩

/-- The range whose record is refused stays open, although the channel has let go of it and has been closed. -/
theorem refused_record_leaks :
    let object : ObjectHandle := { path := "object", size := 4 }
    let w : World (Traced (Logged (List Scripted.Turn)) (Answered Bool)) Unit :=
      ⟨⟨.start [], {}, ⟨true, []⟩, 0⟩, ()⟩
    let after := run refusingSource 9 [.read (some 2), .close] (adaptive object .standard) w
    let calls := after.2.2.transport.behind.calls
    Reached refusingSource object w after.2.1 after.2.2 ∧ after.2.1.closed = true ∧ after.2.1.range.isNone ∧
      Call.openings calls = [⟨some 0, 0, 4⟩] ∧ (Call.closings calls).count 0 ≠ 1 := by
  have hnew : IsNew (adaptive { path := "object", size := 4 } .standard :
    Channel (TracedRange (Numbered Scripted.Span))) := .adaptive _ _
  exact ⟨(Reached.new hnew rfl).run 9 _, by decide +kernel, by decide +kernel, by decide +kernel, by decide +kernel⟩

end Channel

end RangeRead
