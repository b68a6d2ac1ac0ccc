import RangeRead.Proofs.Transport.Log

/-!
# The ranges of a log

`Call.openings` lists the ranges that calls ask for, each with the number that it got if it was opened, and
`Call.closings` the numbers of the ranges that they close. In the calls that a logged transport takes down no number is
given twice (`Call.Numbering`); every call keeps this.
-/

namespace RangeRead

/-- A range that was asked for, with its number if it was opened. -/
structure Opening where
  number : Option Nat
  start : Int
  stop : Int
  deriving DecidableEq

/-- Two ranges did not get the same number. -/
def Opening.Distinct (opening opening' : Opening) : Prop :=
  ∀ number, opening.number = some number → opening'.number ≠ some number

theorem Opening.Distinct.symm {opening opening' : Opening} (h : opening.Distinct opening') :
    opening'.Distinct opening := fun number hnumber' hnumber => h number hnumber hnumber'

namespace Call

/-- The range that a call asks for. -/
def opening? : Call → Option Opening
  | refused start stop _ => some ⟨none, start, stop⟩
  | opened number start stop => some ⟨some number, start, stop⟩
  | pinned .. | read .. | closed .. => none

/-- The number of the range that a call closes. -/
def closing? : Call → Option Nat
  | closed number _ => some number
  | refused .. | opened .. | pinned .. | read .. => none

/-- The ranges that calls ask for, in order, whether or not they were opened. -/
def openings (calls : List Call) : List Opening := calls.filterMap opening?

/-- The ranges that calls close, in order. -/
def closings (calls : List Call) : List Nat := calls.filterMap closing?

@[simp] theorem openings_append (calls more : List Call) : openings (calls ++ more) = openings calls ++ openings more :=
  List.filterMap_append

@[simp] theorem closings_append (calls more : List Call) : closings (calls ++ more) = closings calls ++ closings more :=
  List.filterMap_append

/-- Whether a call pinned a range. -/
def Pins (call : Call) (number : Nat) : Prop := ∃ pin offset answer, call = pinned number pin offset answer

theorem Pins.uses {call : Call} {number : Nat} (h : call.Pins number) : call.Uses number := .inl h

/-- Using a range neither opens nor closes one. -/
theorem Uses.opening? {call : Call} {number : Nat} (h : call.Uses number) : call.opening? = none := by
  rcases h with ⟨_, _, _, rfl⟩ | ⟨_, _, rfl⟩ <;> rfl

theorem Uses.closing? {call : Call} {number : Nat} (h : call.Uses number) : call.closing? = none := by
  rcases h with ⟨_, _, _, rfl⟩ | ⟨_, _, rfl⟩ <;> rfl

theorem openings_uses {uses : List Call} {number : Nat} (h : ∀ call ∈ uses, call.Uses number) : openings uses = [] :=
  List.filterMap_eq_nil_iff.mpr fun call hcall => (h call hcall).opening?

theorem closings_uses {uses : List Call} {number : Nat} (h : ∀ call ∈ uses, call.Uses number) : closings uses = [] :=
  List.filterMap_eq_nil_iff.mpr fun call hcall => (h call hcall).closing?

/-! ## Numbers -/

/-- The calls are about ranges with numbers below `opened`, and no number was given twice. -/
structure Numbering (opened : Nat) (calls : List Call) : Prop where
  number_lt : ∀ call ∈ calls, ∀ number, call.number? = some number → number < opened
  once : (openings calls).Pairwise Opening.Distinct

namespace Numbering

variable {opened : Nat} {calls : List Call}

theorem nil : Numbering 0 [] where
  number_lt := by simp
  once := .nil

theorem opening_lt (h : Numbering opened calls) {opening : Opening} (hmem : opening ∈ openings calls) {number : Nat}
    (hnumber : opening.number = some number) : number < opened := by
  obtain ⟨call, hcall, hopening⟩ := List.mem_filterMap.mp hmem
  refine h.number_lt call hcall number ?_
  cases call with
  | refused _ _ _ => cases hopening; cases hnumber
  | opened _ _ _ => cases hopening; exact hnumber
  | pinned _ _ _ _ => cases hopening
  | read _ _ _ => cases hopening
  | closed _ _ => cases hopening

/-- Calls that open nothing and are about older ranges keep the numbering. -/
theorem append (h : Numbering opened calls) {more : List Call} (hnone : openings more = [])
    (hlt : ∀ call ∈ more, ∀ number, call.number? = some number → number < opened) :
    Numbering opened (calls ++ more) where
  number_lt := by
    intro call hcall
    rcases List.mem_append.mp hcall with hcall | hcall
    · exact h.number_lt call hcall
    · exact hlt call hcall
  once := by
    rw [openings_append, hnone, List.append_nil]
    exact h.once

/-- A call about an older range keeps it. -/
theorem snoc (h : Numbering opened calls) {call : Call} {number : Nat} (hnone : call.opening? = none)
    (hnumber : call.number? = some number) (hlt : number < opened) : Numbering opened (calls ++ [call]) := by
  refine h.append (by simp [openings, hnone]) fun call' hcall m hm => ?_
  rw [List.mem_singleton] at hcall
  subst hcall
  cases hnumber.symm.trans hm
  exact hlt

/-- A range that was refused gets no number. -/
theorem snoc_refused (h : Numbering opened calls) (start stop : Int) (error : ReadError) :
    Numbering opened (calls ++ [.refused start stop error]) where
  number_lt := by
    intro call hcall number hnumber
    rcases List.mem_append.mp hcall with hcall | hcall
    · exact h.number_lt call hcall number hnumber
    · rw [List.mem_singleton] at hcall
      subst hcall
      cases hnumber
  once := by
    rw [openings_append]
    refine List.pairwise_append.mpr ⟨h.once, List.pairwise_singleton _ _, ?_⟩
    intro earlier _ later hlater number _ hsame
    obtain rfl : later = ⟨none, start, stop⟩ := List.mem_singleton.mp hlater
    cases hsame

/-- The next range gets the next number. -/
theorem snoc_opened (h : Numbering opened calls) (start stop : Int) :
    Numbering (opened + 1) (calls ++ [.opened opened start stop]) where
  number_lt := by
    intro call hcall number hnumber
    rcases List.mem_append.mp hcall with hcall | hcall
    · have := h.number_lt call hcall number hnumber
      omega
    · rw [List.mem_singleton] at hcall
      subst hcall
      cases hnumber
      omega
  once := by
    rw [openings_append]
    refine List.pairwise_append.mpr ⟨h.once, List.pairwise_singleton _ _, ?_⟩
    intro earlier hearlier later hlater number hnumber hsame
    obtain rfl : later = ⟨some opened, start, stop⟩ := List.mem_singleton.mp hlater
    cases hsame
    exact absurd (h.opening_lt hearlier hnumber) (Nat.lt_irrefl _)

/-- It may then be pinned. -/
theorem append_pinned (h : Numbering opened calls) (start stop : Int) {pins : List Call}
    (hpins : ∀ call ∈ pins, call.Pins opened) :
    Numbering (opened + 1) (calls ++ .opened opened start stop :: pins) := by
  have hopened := (h.snoc_opened start stop).append (openings_uses fun call hcall => (hpins call hcall).uses)
    fun call hcall number hnumber => by
      rw [(hpins call hcall).uses.number?] at hnumber
      cases hnumber
      exact Nat.lt_succ_self _
  rwa [List.append_assoc] at hopened

end Numbering

end Call

end RangeRead
