import RangeRead.Proofs.Transport.Custody

/-!
# The calls that a transport gets

`Transport.logged` passes every call on to another transport and takes it down. The calls of a channel are the calls
of one range after the other. The calls of ranges that are not used any more are `Settled`: each was refused, or could
not be pinned and was closed, or was read at least once and closed. A range that is still in use is `InUse`.

From this it follows that a range is opened only when all earlier ones have been closed, and that nothing is done with
a range that has been closed (`Settled.orderly`, `InUse.orderly`). A logged transport keeps custody of its ranges in
these terms (`logged_keeps`).
-/

namespace RangeRead

/-! ## Calls -/

/-- A call of a transport and its answer. A range that has been opened is known by its number. -/
inductive Call
  | refused (start stop : Int) (error : ReadError)
  | opened (number : Nat) (start stop : Int)
  | pinned (number : Nat) (pin : Pin) (offset : Int) (answer : Except ReadError Unit)
  | read (number want : Nat) (reply : Reply)
  | closed (number : Nat) (answer : Except ReadError Unit)

namespace Call

/-- The range that a call is about. -/
def number? : Call → Option Nat
  | refused _ _ _ => none
  | opened number _ _ | pinned number _ _ _ | read number _ _ | closed number _ => some number

/-- Whether a call opened a range. -/
def Opens (call : Call) (number : Nat) : Prop := ∃ start stop, call = opened number start stop

/-- Whether a call closed a range, with or without an error. -/
def Closes (call : Call) (number : Nat) : Prop := ∃ answer, call = closed number answer

/-- Whether a call read a range. -/
def Reads (call : Call) (number : Nat) : Prop := ∃ want reply, call = read number want reply

end Call

/-! ## Blocks of calls -/

/-- The calls of a range that is in use: it was opened, pinned to its window and read at least once. -/
inductive InUse (number : Nat) : List Call → Prop
  | mk {start stop : Int} {reads : List Call} (hne : reads ≠ []) (hreads : ∀ call ∈ reads, call.Reads number) :
    InUse number
      (.opened number start stop :: .pinned number .seek start (.ok ()) :: .pinned number .limit stop (.ok ()) :: reads)

/-- The calls of a range up to its close: it could not be pinned, or it was in use. -/
inductive Block (number : Nat) : List Call → Prop
  | notSought {start stop : Int} {error : ReadError} :
    Block number [.opened number start stop, .pinned number .seek start (.error error)]
  | notLimited {start stop : Int} {error : ReadError} :
    Block number
      [.opened number start stop, .pinned number .seek start (.ok ()), .pinned number .limit stop (.error error)]
  | used {use : List Call} (huse : InUse number use) : Block number use

/-- The calls of ranges that are in use no more: those that were refused, and the first `opened` others, each closed
before the next. -/
inductive Settled : Nat → List Call → Prop
  | none : Settled 0 []
  | refused {opened calls start stop error} (before : Settled opened calls) :
    Settled opened (calls ++ [.refused start stop error])
  | closed {opened calls block answer} (before : Settled opened calls) (hblock : Block opened block) :
    Settled (opened + 1) (calls ++ block ++ [.closed opened answer])

/-! ## Order -/

/-- A range is opened only when all earlier ones have been closed, and nothing is done with a closed range. -/
structure Orderly (calls : List Call) : Prop where
  closed_before : ∀ {before call after number}, calls = before ++ call :: after → call.Opens number →
    ∀ earlier ∈ before, ∀ m, earlier.Opens m → ∃ closing ∈ before, closing.Closes m
  nothing_after : ∀ {before call after number}, calls = before ++ call :: after → call.Closes number →
    ∀ later ∈ after, later.number? ≠ some number

theorem Orderly.nil : Orderly [] where
  closed_before h := by simp at h
  nothing_after h := by simp at h

/-- Every range that the calls opened has been closed. -/
def AllClosed (calls : List Call) : Prop :=
  ∀ call ∈ calls, ∀ number, call.Opens number → ∃ closing ∈ calls, closing.Closes number

/-- A call may follow if it opens nothing, or all is closed, and if it is about no range that has been closed. -/
theorem Orderly.snoc {calls : List Call} {call : Call} (h : Orderly calls)
    (hopen : ∀ number, call.Opens number → AllClosed calls)
    (hclosed : ∀ number, call.number? = some number → ∀ earlier ∈ calls, ¬earlier.Closes number) :
    Orderly (calls ++ [call]) where
  closed_before {before x after number} heq hx := by
    rcases List.eq_nil_or_concat after with rfl | ⟨after', y, rfl⟩
    · obtain ⟨rfl, hlast⟩ := List.append_inj' heq rfl
      cases hlast
      exact hopen number hx
    · rw [List.concat_eq_append, ← List.cons_append, ← List.append_assoc] at heq
      exact h.closed_before (List.append_inj' heq rfl).1 hx
  nothing_after {before x after number} heq hx := by
    rcases List.eq_nil_or_concat after with rfl | ⟨after', y, rfl⟩
    · simp
    · rw [List.concat_eq_append, ← List.cons_append, ← List.append_assoc] at heq
      obtain ⟨rfl, hlast⟩ := List.append_inj' heq rfl
      cases hlast
      intro later hlater hnumber
      rw [List.concat_eq_append, List.mem_append, List.mem_singleton] at hlater
      rcases hlater with hlater | rfl
      · exact h.nothing_after rfl hx later hlater hnumber
      · exact hclosed number hnumber x (by simp) hx

/-- A call that pins or reads a range. -/
def Call.Uses (call : Call) (number : Nat) : Prop :=
  (∃ pin offset answer, call = .pinned number pin offset answer) ∨ call.Reads number

theorem Call.Uses.number? {call : Call} {number : Nat} (h : call.Uses number) : call.number? = some number := by
  rcases h with ⟨_, _, _, rfl⟩ | ⟨_, _, rfl⟩ <;> rfl

theorem Call.Uses.not_opens {call : Call} {number m : Nat} (h : call.Uses number) : ¬call.Opens m := by
  rintro ⟨_, _, rfl⟩
  rcases h with ⟨_, _, _, h⟩ | ⟨_, _, h⟩ <;> cases h

theorem Call.Uses.not_closes {call : Call} {number m : Nat} (h : call.Uses number) : ¬call.Closes m := by
  rintro ⟨_, rfl⟩
  rcases h with ⟨_, _, _, h⟩ | ⟨_, _, h⟩ <;> cases h

/-- A range that has not been closed may be used. -/
theorem Orderly.append_uses {calls uses : List Call} {number : Nat} (h : Orderly calls)
    (huses : ∀ call ∈ uses, call.Uses number) (hclosed : ∀ call ∈ calls, ¬call.Closes number) :
    Orderly (calls ++ uses) ∧ ∀ call ∈ calls ++ uses, ¬call.Closes number := by
  refine ⟨?_, fun call hcall => ?_⟩
  · induction uses generalizing calls with
    | nil => simpa using h
    | cons call uses ih =>
      have huse := huses call (by simp)
      have hsnoc : Orderly (calls ++ [call]) := h.snoc (fun _ ho => absurd ho huse.not_opens)
        (fun m hm => by rw [huse.number?] at hm; cases hm; exact hclosed)
      have hrest := ih hsnoc (fun x hx => huses x (by simp [hx])) (fun x hx => by
        rw [List.mem_append, List.mem_singleton] at hx
        rcases hx with hx | rfl
        · exact hclosed x hx
        · exact huse.not_closes)
      rwa [List.append_assoc] at hrest
  · rcases List.mem_append.mp hcall with hcall | hcall
    · exact hclosed call hcall
    · exact (huses call hcall).not_closes

/-! ## What blocks of calls have in common -/

/-- The calls of `opened` ranges, all of which have been closed, in order. -/
structure Finished (opened : Nat) (calls : List Call) : Prop where
  orderly : Orderly calls
  allClosed : AllClosed calls
  number_lt : ∀ call ∈ calls, ∀ number, call.number? = some number → number < opened

theorem Call.Closes.number? {call : Call} {number : Nat} (h : call.Closes number) : call.number? = some number := by
  obtain ⟨_, rfl⟩ := h
  rfl

theorem Call.Opens.number? {call : Call} {number : Nat} (h : call.Opens number) : call.number? = some number := by
  obtain ⟨_, _, rfl⟩ := h
  rfl

namespace Finished

variable {opened : Nat} {calls uses : List Call} (h : Finished opened calls)
include h

theorem refused (start stop : Int) (error : ReadError) : Finished opened (calls ++ [.refused start stop error]) where
  orderly := h.orderly.snoc (fun _ ⟨_, _, ho⟩ => by cases ho) (fun _ hm => by cases hm)
  allClosed call hcall number hopens := by
    rw [List.mem_append, List.mem_singleton] at hcall
    rcases hcall with hcall | rfl
    · obtain ⟨closing, hmem, hcloses⟩ := h.allClosed call hcall number hopens
      exact ⟨closing, by simp [hmem], hcloses⟩
    · obtain ⟨_, _, ho⟩ := hopens
      cases ho
  number_lt call hcall number hnumber := by
    rw [List.mem_append, List.mem_singleton] at hcall
    rcases hcall with hcall | rfl
    · exact h.number_lt call hcall number hnumber
    · cases hnumber

/-- The next range may be opened and used. -/
theorem open_use (start stop : Int) (huses : ∀ call ∈ uses, call.Uses opened) :
    Orderly (calls ++ .opened opened start stop :: uses) ∧
      ∀ call ∈ calls ++ .opened opened start stop :: uses, ¬call.Closes opened := by
  have hnot : ∀ call ∈ calls, ∀ number, call.number? = some number → number ≠ opened :=
    fun call hcall number hnumber heq => by
      have := h.number_lt call hcall number hnumber
      omega
  have hopen : Orderly (calls ++ [.opened opened start stop]) :=
    h.orderly.snoc (fun _ _ => h.allClosed) (fun m hm earlier hearlier hcloses => by
      cases hm
      exact hnot earlier hearlier _ hcloses.number? rfl)
  have hclosed : ∀ call ∈ calls ++ [.opened opened start stop], ¬call.Closes opened := by
    intro call hcall hcloses
    rw [List.mem_append, List.mem_singleton] at hcall
    rcases hcall with hcall | rfl
    · exact hnot call hcall _ hcloses.number? rfl
    · obtain ⟨_, hc⟩ := hcloses
      cases hc
  have happend := hopen.append_uses huses hclosed
  rwa [List.append_assoc] at happend

/-- Once it has been closed all is finished again. -/
theorem open_use_close (start stop : Int) (huses : ∀ call ∈ uses, call.Uses opened) (answer : Except ReadError Unit) :
    Finished (opened + 1) (calls ++ .opened opened start stop :: uses ++ [.closed opened answer]) where
  orderly := by
    obtain ⟨horderly, hclosed⟩ := h.open_use start stop huses
    refine horderly.snoc (fun _ ⟨_, _, ho⟩ => by cases ho) (fun m hm => ?_)
    cases hm
    exact hclosed
  allClosed call hcall number hopens := by
    simp only [List.mem_append, List.mem_cons, List.not_mem_nil, or_false] at hcall
    rcases hcall with (hcall | rfl | hcall) | rfl
    · obtain ⟨closing, hmem, hcloses⟩ := h.allClosed call hcall number hopens
      exact ⟨closing, by simp [hmem], hcloses⟩
    · obtain ⟨_, _, ho⟩ := hopens
      cases ho
      exact ⟨.closed opened answer, by simp, answer, rfl⟩
    · exact absurd hopens (huses call hcall).not_opens
    · obtain ⟨_, _, ho⟩ := hopens
      cases ho
  number_lt call hcall number hnumber := by
    simp only [List.mem_append, List.mem_cons, List.not_mem_nil, or_false] at hcall
    rcases hcall with (hcall | rfl | hcall) | rfl
    · have := h.number_lt call hcall number hnumber
      omega
    · cases hnumber
      omega
    · rw [(huses call hcall).number?] at hnumber
      cases hnumber
      omega
    · cases hnumber
      omega

end Finished

/-- A block opens its range and then uses it. -/
theorem Block.uses {number : Nat} {block : List Call} (h : Block number block) :
    ∃ start stop uses, block = .opened number start stop :: uses ∧ ∀ call ∈ uses, call.Uses number := by
  cases h with
  | notSought =>
    refine ⟨_, _, _, rfl, fun call hcall => .inl ?_⟩
    rw [List.mem_singleton] at hcall
    exact ⟨_, _, _, hcall⟩
  | notLimited =>
    refine ⟨_, _, _, rfl, fun call hcall => .inl ?_⟩
    simp only [List.mem_cons, List.not_mem_nil, or_false] at hcall
    rcases hcall with rfl | rfl
    · exact ⟨_, _, _, rfl⟩
    · exact ⟨_, _, _, rfl⟩
  | used huse =>
    obtain ⟨-, hreads⟩ := huse
    refine ⟨_, _, _, rfl, fun call hcall => ?_⟩
    simp only [List.mem_cons] at hcall
    rcases hcall with rfl | rfl | hcall
    · exact .inl ⟨_, _, _, rfl⟩
    · exact .inl ⟨_, _, _, rfl⟩
    · exact .inr (hreads call hcall)

/-- Settled calls are in order, and every range that they opened has been closed. -/
theorem Settled.finished {opened : Nat} {calls : List Call} (h : Settled opened calls) : Finished opened calls := by
  induction h with
  | none => exact ⟨.nil, fun _ h => by simp at h, fun _ h => by simp at h⟩
  | refused _ ih => exact ih.refused _ _ _
  | closed _ hblock ih =>
    obtain ⟨start, stop, uses, rfl, huses⟩ := hblock.uses
    exact ih.open_use_close start stop huses _

/-- So are the calls of a range that is in use behind them. -/
theorem Settled.orderly_append {opened : Nat} {calls use : List Call} (h : Settled opened calls)
    (huse : InUse opened use) : Orderly (calls ++ use) := by
  obtain ⟨start, stop, uses, rfl, huses⟩ := (Block.used huse).uses
  exact (h.finished.open_use start stop huses).1

/-! ## Logged transports -/

/-- The state of a transport and the calls that it got. -/
structure Logged (σ : Type) where
  behind : σ
  calls : List Call := []
  /-- How many ranges have been opened. -/
  opened : Nat := 0

/-- A range with its number. -/
structure Numbered (H : Type) where
  behind : H
  number : Nat

variable {σ H ρ : Type}

/-- The transport that passes every call on to another one and takes it down. -/
def Transport.logged (t : Transport σ H) : Transport (Logged σ) (Numbered H) where
  openRange object start stop s :=
    match t.openRange object start stop s.behind with
    | (.error e, behind) => (.error e, { s with behind := behind, calls := s.calls ++ [.refused start stop e] })
    | (.ok h, behind) => (.ok ⟨h, s.opened⟩, ⟨behind, s.calls ++ [.opened s.opened start stop], s.opened + 1⟩)
  pin pin offset h s :=
    let (answer, behind, state) := t.pin pin offset h.behind s.behind
    (answer, { h with behind := behind },
      { s with behind := state, calls := s.calls ++ [.pinned h.number pin offset answer] })
  read want h s :=
    let (reply, behind, state) := t.read want h.behind s.behind
    (reply, { h with behind := behind }, { s with behind := state, calls := s.calls ++ [.read h.number want reply] })
  close h s :=
    let (answer, state) := t.close h.behind s.behind
    (answer, { s with behind := state, calls := s.calls ++ [.closed h.number answer] })
  note notice s := { s with behind := t.note notice s.behind }

/-- The state of a logged transport that has got no calls yet. -/
def Logged.start (s : σ) : Logged σ := { behind := s }

/-- Custody of the ranges of a logged transport, in terms of its calls. -/
def callCustody (σ H : Type) : Custody (Logged σ) (Numbered H) where
  idle s := Settled s.opened s.calls
  fresh h s := s.opened = h.number + 1 ∧ ∃ before start stop, Settled h.number before ∧
    s.calls = before ++ [.opened h.number start stop, .pinned h.number .seek start (.ok ()),
      .pinned h.number .limit stop (.ok ())]
  held h s := s.opened = h.number + 1 ∧ ∃ before use, Settled h.number before ∧ InUse h.number use ∧
    s.calls = before ++ use

/-- A range that is in use may be read once more. -/
theorem InUse.snoc {number : Nat} {use : List Call} (h : InUse number use) (want : Nat) (reply : Reply) :
    InUse number (use ++ [.read number want reply]) := by
  cases h with
  | @mk start stop reads hne hreads =>
    show InUse number (_ :: _ :: _ :: (reads ++ [.read number want reply]))
    refine .mk (by simp) (fun call hcall => ?_)
    rw [List.mem_append, List.mem_singleton] at hcall
    rcases hcall with hcall | rfl
    · exact hreads call hcall
    · exact ⟨want, reply, rfl⟩

namespace Transport

variable {t : Transport σ H}

theorem logged_openRange_error {o : ObjectHandle} {start stop : Int} {s s' : Logged σ} {e : ReadError}
    (heq : t.logged.openRange o start stop s = (.error e, s')) :
    s'.opened = s.opened ∧ s'.calls = s.calls ++ [.refused start stop e] := by
  simp only [logged] at heq
  split at heq
  · cases heq
    exact ⟨rfl, rfl⟩
  · cases heq

theorem logged_openRange_ok {o : ObjectHandle} {start stop : Int} {s s' : Logged σ} {h : Numbered H}
    (heq : t.logged.openRange o start stop s = (.ok h, s')) :
    h.number = s.opened ∧ s'.opened = s.opened + 1 ∧ s'.calls = s.calls ++ [.opened s.opened start stop] := by
  simp only [logged] at heq
  split at heq
  · cases heq
  · cases heq
    exact ⟨rfl, rfl, rfl⟩

theorem logged_pin {pin : Pin} {offset : Int} {h h' : Numbered H} {s s' : Logged σ} {a : Except ReadError Unit}
    (heq : t.logged.pin pin offset h s = (a, h', s')) :
    h'.number = h.number ∧ s'.opened = s.opened ∧ s'.calls = s.calls ++ [.pinned h.number pin offset a] := by
  cases heq
  exact ⟨rfl, rfl, rfl⟩

theorem logged_read {want : Nat} {h h' : Numbered H} {s s' : Logged σ} {reply : Reply}
    (heq : t.logged.read want h s = (reply, h', s')) :
    h'.number = h.number ∧ s'.opened = s.opened ∧ s'.calls = s.calls ++ [.read h.number want reply] := by
  cases heq
  exact ⟨rfl, rfl, rfl⟩

theorem logged_close {h : Numbered H} {s s' : Logged σ} {a : Except ReadError Unit}
    (heq : t.logged.close h s = (a, s')) :
    s'.opened = s.opened ∧ s'.calls = s.calls ++ [.closed h.number a] := by
  cases heq
  exact ⟨rfl, rfl⟩

theorem logged_closeQuietly (o : ObjectHandle) (h : Numbered H) (s : Logged σ) :
    ∃ answer, (t.logged.closeQuietly o h s).opened = s.opened ∧
      (t.logged.closeQuietly o h s).calls = s.calls ++ [.closed h.number answer] := by
  unfold closeQuietly
  split
  · rename_i heq
    exact ⟨_, logged_close heq⟩
  · rename_i heq
    have hclose := logged_close heq
    exact ⟨_, hclose⟩

/-- A logged transport keeps custody of its ranges. -/
theorem logged_keeps (t : Transport σ H) : t.logged.Keeps (callCustody σ H) where
  note_idle _ hs := hs
  note_held _ hs := hs
  opened {o start stop s h s'} hs heq := by
    cases Opens.of_eq heq with
    | @opened _ _ _ _ _ _ _ s₃ hopen hseek hlimit =>
      obtain ⟨hn, ho, hc⟩ := logged_openRange_ok hopen
      obtain ⟨hn₂, ho₂, hc₂⟩ := logged_pin hseek
      obtain ⟨hn₃, ho₃, hc₃⟩ := logged_pin hlimit
      have hnumber : h.number = s.opened := by rw [hn₃, hn₂, hn]
      refine ⟨?_, s.calls, start, stop, by rw [hnumber]; exact hs, ?_⟩
      · show s₃.opened = _
        rw [ho₃, ho₂, ho, hnumber]
      · show s₃.calls = _
        rw [hc₃, hc₂, hc, hn₂, hn, hnumber]
        simp
  notOpened {o start stop s e s'} hs heq := by
    cases Opens.of_eq heq with
    | refused hopen =>
      obtain ⟨ho, hc⟩ := logged_openRange_error hopen
      show Settled s'.opened s'.calls
      rw [ho, hc]
      exact Settled.refused hs
    | @notSought _ _ _ h₂ s₂ hopen hseek =>
      obtain ⟨hn, ho, hc⟩ := logged_openRange_ok hopen
      obtain ⟨hn₂, ho₂, hc₂⟩ := logged_pin hseek
      obtain ⟨answer, ho₃, hc₃⟩ := @logged_closeQuietly _ _ t o h₂ s₂
      show Settled (t.logged.closeQuietly o h₂ s₂).opened (t.logged.closeQuietly o h₂ s₂).calls
      rw [ho₃, hc₃, ho₂, hc₂, ho, hc, hn₂, hn, List.append_assoc s.calls]
      exact Settled.closed hs .notSought
    | @notLimited _ _ _ _ _ _ h₃ s₃ hopen hseek hlimit =>
      obtain ⟨hn, ho, hc⟩ := logged_openRange_ok hopen
      obtain ⟨hn₂, ho₂, hc₂⟩ := logged_pin hseek
      obtain ⟨hn₃, ho₃, hc₃⟩ := logged_pin hlimit
      obtain ⟨answer, ho₄, hc₄⟩ := @logged_closeQuietly _ _ t o h₃ s₃
      show Settled (t.logged.closeQuietly o h₃ s₃).opened (t.logged.closeQuietly o h₃ s₃).calls
      rw [ho₄, hc₄, ho₃, hc₃, ho₂, hc₂, ho, hc, hn₃, hn₂, hn, List.append_assoc s.calls, List.append_assoc s.calls]
      exact Settled.closed hs .notLimited
  read {h s want reply h' s'} hs heq := by
    obtain ⟨hn, ho, hc⟩ := logged_read heq
    rcases hs with ⟨hopened, before, start, stop, hbefore, hcalls⟩ | ⟨hopened, before, use, hbefore, huse, hcalls⟩
    · have huse : InUse h.number (.opened h.number start stop :: .pinned h.number .seek start (.ok ()) ::
          .pinned h.number .limit stop (.ok ()) :: [.read h.number want reply]) :=
        .mk (List.cons_ne_nil _ _) (fun call hcall => ⟨want, reply, List.mem_singleton.mp hcall⟩)
      refine ⟨by rw [ho, hn, hopened], before, _, by rw [hn]; exact hbefore, by rw [hn]; exact huse, ?_⟩
      rw [hc, hcalls, List.append_assoc]
      rfl
    · refine ⟨by rw [ho, hn, hopened], before, _, by rw [hn]; exact hbefore, by rw [hn]; exact huse.snoc want reply, ?_⟩
      rw [hc, hcalls, List.append_assoc]
  close {h s} hs := by
    obtain ⟨hopened, before, use, hbefore, huse, hcalls⟩ := hs
    show Settled s.opened (s.calls ++ _)
    rw [hopened, hcalls]
    exact hbefore.closed (.used huse)

end Transport

end RangeRead
