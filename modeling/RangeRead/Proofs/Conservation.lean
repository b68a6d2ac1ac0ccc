import RangeRead.Proofs.Sharing
import RangeRead.Proofs.Trace.Metered

/-!
# Where the bytes go

Every byte that a channel pulls through a trace is returned, or was skipped before a read (`Account`), or was refused by
the recorder. While nothing goes wrong, the total of the trace is what these come to, and no skip is longer than the
options allow (`conserves_bytes`). A simple channel skips nothing.

Whatever goes wrong, no record of the trace has counted less than nothing or more than was asked for.
-/

namespace RangeRead

variable {σ C H κ ρ : Type} {t : Transport σ H} {store : Store σ C} {clock : Nat → Float}
  {observer : Option (Observer κ)} {o : ObjectHandle} {v : View σ H} {recorder : Option (Recorder ρ)} {memory n : Nat}

/-! ## Accounts -/

/-- What has become of the bytes that an operation pulled. -/
structure Account where
  returned : Int
  /-- Those that the recorder refused, after the position had moved past them. -/
  refused : Int
  /-- Those that were skipped first, if the operation was a read that was served by a skip. -/
  skipped : Option Int

namespace Account

/-- How many bytes that were. -/
def pulled (account : Account) : Int := account.returned + account.refused + account.skipped.getD 0

/-- How many bytes were returned to the caller. -/
def returnedBy (accounts : List Account) : Int := (accounts.map returned).sum

def refusedBy (accounts : List Account) : Int := (accounts.map refused).sum

/-- How far each of the reads skipped that were served by a skip. -/
def skips (accounts : List Account) : List Int := accounts.filterMap skipped

theorem pulled_sum (accounts : List Account) :
    (accounts.map pulled).sum = returnedBy accounts + refusedBy accounts + (skips accounts).sum := by
  induction accounts with
  | nil => rfl
  | cons account accounts ih =>
    unfold returnedBy refusedBy skips pulled at ih ⊢
    cases hskipped : account.skipped with
    | none =>
      rw [List.filterMap_cons_none hskipped]
      simp only [List.map_cons, List.sum_cons, ih, hskipped, Option.getD_none]
      omega
    | some distance =>
      rw [List.filterMap_cons_some hskipped]
      simp only [List.map_cons, List.sum_cons, ih, hskipped, Option.getD_some]
      omega

end Account

namespace Channel

/-- What becomes of the bytes that an operation pulls. -/
def account (src : Source σ H ρ) (n : Nat) (operation : Operation) (c : Channel H) (w : World σ ρ) : Account where
  returned := bytesReturned (c.perform src n operation w).1
  refused :=
    match (c.perform src n operation w).1 with
    | .failed _ => (c.perform src n operation w).2.1.position - c.position
    | .done _ | .stalled => 0
  skipped := if c.Engages src.memory operation then c.skipDistance else none

/-- The same of operations, one after the other. -/
def accounts (src : Source σ H ρ) (n : Nat) : List Operation → Channel H → World σ ρ → List Account
  | [], _, _ => []
  | operation :: operations, c, w =>
    c.account src n operation w ::
      accounts src n operations (c.perform src n operation w).2.1 (c.perform src n operation w).2.2

section Operations

variable {src : Source σ H ρ} {operation : Operation} {c : Channel H} {w : World σ ρ}

/-- What a read returns, or what the recorder refuses, is what the position has moved by. -/
theorem account_advance (ht : src.transport.Honest o v) (hread : operation.isRead = true)
    (hp : Placed v o c w.transport) (hends : (c.perform src n operation w).1 ≠ .stalled) :
    (c.account src n operation w).returned + (c.account src n operation w).refused =
      (c.perform src n operation w).2.1.position - c.position := by
  unfold account
  dsimp only
  cases hanswer : (c.perform src n operation w).1 with
  | done answer =>
    obtain ⟨-, hposition⟩ := perform_returned ht hread hp hanswer
    dsimp only
    omega
  | failed e =>
    exact Int.zero_add _
  | stalled => exact absurd hanswer hends

/-- What does not read and fails has changed nothing. -/
theorem not_read_failed (hread : operation.isRead = false) {e : ReadError}
    (hfails : (c.perform src n operation w).1 = .failed e) : (c.perform src n operation w).2 = (c, w) := by
  cases operation with
  | read k => cases hread
  | readAll => cases hread
  | readInto buffer => cases hread
  | seek offset whence => exact seek_failed hfails
  | tell => rfl
  | close => cases hfails

/-- A recorder that accepts refuses nothing. -/
theorem account_refused (haccepts : src.Accepts) : (c.account src n operation w).refused = 0 := by
  unfold account
  dsimp only
  cases hanswer : (c.perform src n operation w).1 with
  | done answer => rfl
  | stalled => rfl
  | failed e =>
    show (c.perform src n operation w).2.1.position - c.position = 0
    by_cases hread : operation.isRead = true
    · have hreads := @perform_readsTo _ _ _ src n operation hread c w
      generalize c.perform src n operation w = after at hreads hanswer ⊢
      obtain ⟨a, c', w'⟩ := after
      dsimp only at hreads hanswer ⊢
      subst hanswer
      cases hreads with
      | nothing _ => exact Int.sub_self _
      | fails _ hdeliver =>
        rw [(Delivers.of_eq hdeliver).of_failed.2]
        exact Int.sub_self _
      | refused _ _ hreport =>
        obtain ⟨recorder, hsome, -, hrecord⟩ := report_failed hreport
        obtain ⟨u, r', haccepted⟩ := haccepts recorder hsome _ _
        rw [haccepted] at hrecord
        cases hrecord
    · rw [not_read_failed (eq_false_of_ne_true hread) hanswer]
      exact Int.sub_self _

/-- An operation that does not read has pulled nothing. -/
theorem account_of_not_read (hread : operation.isRead = false) : (c.account src n operation w).pulled = 0 := by
  have hreturned := @bytesReturned_of_not_read _ _ _ src n operation hread c w
  have hrefused : (c.account src n operation w).refused = 0 := by
    unfold account
    dsimp only
    cases hanswer : (c.perform src n operation w).1 with
    | done answer => rfl
    | stalled => rfl
    | failed e =>
      rw [not_read_failed hread hanswer]
      exact Int.sub_self _
  have hskipped : (c.account src n operation w).skipped = none := by
    refine if_neg fun hengages => ?_
    rw [hengages.isRead] at hread
    cases hread
  unfold Account.pulled
  rw [hrefused, hskipped]
  exact (Int.add_zero _).trans ((Int.add_zero _).trans hreturned)

/-- A read that comes to no delivery has pulled nothing. -/
theorem account_of_not_engages (ht : src.transport.Honest o v) (hread : operation.isRead = true)
    (hp : Placed v o c w.transport) (hends : (c.perform src n operation w).1 ≠ .stalled)
    (hengages : ¬c.Engages src.memory operation) : (c.account src n operation w).pulled = 0 := by
  have hadvance := account_advance ht hread hp hends
  rw [perform_of_not_engages hread hengages w] at hadvance
  have hskipped : (c.account src n operation w).skipped = none := if_neg hengages
  unfold Account.pulled
  rw [hskipped, hadvance]
  exact (Int.add_zero _).trans (Int.sub_self _)

end Operations

/-! ## Operations that pull -/

/-- What does not read reports nothing. -/
theorem perform_reported_of_not_read {operation : Operation} (hread : operation.isRead = false)
    (c : Channel (Numbered H)) (w : World (Logged σ) ρ) :
    Call.totalReported (c.perform ⟨t.logged, recorder, memory⟩ n operation w).2.2.transport.calls =
      Call.totalReported w.transport.calls := by
  have hdropped : Call.totalReported (c.dropRange t.logged w.transport).2.calls =
      Call.totalReported w.transport.calls := by
    cases hr : c.range with
    | none => rw [dropRange_of_none hr]
    | some r =>
      rw [dropRange_of_range hr]
      exact Transport.logged_closeQuietly_reported _ _ _
  cases operation with
  | read k => cases hread
  | readAll => cases hread
  | readInto buffer => cases hread
  | tell => rfl
  | close =>
    show Call.totalReported (c.close t.logged w.transport).2.calls = _
    unfold close
    split
    · rfl
    · exact hdropped
  | seek offset whence =>
    show Call.totalReported (c.seek t.logged offset whence w.transport).2.2.calls = _
    unfold seek
    split
    · rfl
    · split
      · rfl
      · rename_i target _
        rcases moveTo_eq t.logged target c w.transport with ⟨-, h⟩ | ⟨-, h⟩
        · rw [h]
        · rw [h]
          exact hdropped

/-- With flawless calls an operation reports the bytes that its account tells of. -/
theorem perform_pulls (ht : t.Honest o v) (hcounts : t.Counts) (operation : Operation) {c : Channel (Numbered H)}
    {w : World (Logged σ) ρ} (hp : Placed v.logged o c w.transport) (hs : Stands c w.transport)
    (hends : (c.perform ⟨t.logged, recorder, memory⟩ n operation w).1 ≠ .stalled)
    (hflawless : Call.Flawless (c.perform ⟨t.logged, recorder, memory⟩ n operation w).2.2.transport.calls) :
    Call.totalReported (c.perform ⟨t.logged, recorder, memory⟩ n operation w).2.2.transport.calls =
      Call.totalReported w.transport.calls + (c.account ⟨t.logged, recorder, memory⟩ n operation w).pulled := by
  by_cases hread : operation.isRead = true
  · by_cases hengages : c.Engages memory operation
    · have hadvance := @account_advance _ _ _ _ _ n ⟨t.logged, recorder, memory⟩ operation c w ht.logged hread hp hends
      obtain ⟨gap, hsame, hstalls⟩ :=
        @perform_of_engages _ _ _ ⟨t.logged, recorder, memory⟩ n operation c hread hengages w
      obtain ⟨hchannel, htransport⟩ :=
        @deliverAndReport_channel _ _ _ ⟨t.logged, recorder, memory⟩ n (c.wants operation) gap c w
      rw [hsame, htransport] at hflawless
      rw [hsame, hchannel] at hadvance
      rw [hsame, htransport]
      dsimp only at hadvance ⊢
      have hdelivers := delivers_deliver (t := t.logged) n (c.wants operation) gap c w.transport
      obtain ⟨got, hgot, hpulled⟩ := hdelivers.pulls hcounts hs hflawless fun hstalled =>
        hends (hstalls ((deliverAndReport_stalled gap c w).mpr hstalled))
      rw [hgot] at hdelivers
      have hposition := hdelivers.position
      have hskipped : (c.account ⟨t.logged, recorder, memory⟩ n operation w).skipped = c.skipDistance :=
        if_pos hengages
      unfold Account.pulled
      rw [hskipped]
      omega
    · have hnothing :=
        @account_of_not_engages _ _ _ _ _ n ⟨t.logged, recorder, memory⟩ operation c w ht.logged hread hp hends hengages
      rw [hnothing, perform_of_not_engages hread hengages w]
      exact (Int.add_zero _).symm
  · have hother : operation.isRead = false := eq_false_of_ne_true hread
    rw [account_of_not_read hother, perform_reported_of_not_read hother]
    exact (Int.add_zero _).symm

/-! ## Runs -/

/-- A run takes no call back. -/
theorem run_extends (ht : t.Honest o v) (operations : List Operation) {c : Channel (Numbered H)}
    {w : World (Logged σ) ρ} (hp : Placed v.logged o c w.transport) :
    w.transport.calls <+: (run ⟨t.logged, recorder, memory⟩ n operations c w).2.2.transport.calls := by
  have hstart : Placed (v.logged.and fun s => w.transport.calls <+: s.calls) o c w.transport :=
    ⟨hp.object, hp.nonneg, hp.le_size, View.and_holds hp.holds List.prefix_rfl⟩
  have hinvariant := placed_invariant (ht.logged.and (t.logged_extends o w.transport.calls))
  have hrun := @Invariant.run _ _ _ ⟨t.logged, recorder, memory⟩ _ hinvariant c w hstart n operations
  exact (View.holds_and hrun.holds).2

/-- With flawless calls a run reports the bytes that its accounts tell of. -/
theorem run_pulls (ht : t.Honest o v) (hcounts : t.Counts) (operations : List Operation) {c : Channel (Numbered H)}
    {w : World (Logged σ) ρ} (hp : Placed v.logged o c w.transport) (hs : Stands c w.transport)
    (hends : ∀ answer ∈ (run ⟨t.logged, recorder, memory⟩ n operations c w).1, answer ≠ .stalled)
    (hflawless : Call.Flawless (run ⟨t.logged, recorder, memory⟩ n operations c w).2.2.transport.calls) :
    Call.totalReported (run ⟨t.logged, recorder, memory⟩ n operations c w).2.2.transport.calls =
      Call.totalReported w.transport.calls +
        ((c.accounts ⟨t.logged, recorder, memory⟩ n operations w).map Account.pulled).sum := by
  induction operations generalizing c w with
  | nil => exact (Int.add_zero _).symm
  | cons operation operations ih =>
    rw [run_cons] at hends hflawless ⊢
    dsimp only at hends hflawless ⊢
    rw [List.forall_mem_cons] at hends
    have hp' := @Invariant.perform _ _ _ ⟨t.logged, recorder, memory⟩ _ (placed_invariant ht.logged) c w hp n operation
    have hs' := @Invariant.perform _ _ _ ⟨t.logged, recorder, memory⟩ _ (stands_invariant t) c w hs n operation
    have hfirst := perform_pulls ht hcounts operation hp hs hends.1
      (hflawless.of_prefix (run_extends ht operations hp'))
    have hrest := ih hp' hs' hends.2 hflawless
    unfold accounts
    rw [hrest, hfirst, List.map_cons, List.sum_cons]
    omega

/-- How far reads skip is within the limit of the options. -/
theorem skips_le {src : Source σ H ρ} (operations : List Operation) {c : Channel H} {w : World σ ρ} (hsized : Sized c) :
    ∀ distance ∈ Account.skips (c.accounts src n operations w),
      1 ≤ distance ∧ distance ≤ c.options.inplaceSeekLimit := by
  induction operations generalizing c w with
  | nil => nofun
  | cons operation operations ih =>
    have hsized' := @Invariant.perform _ _ _ src _ (sized_invariant src.transport) c w hsized n operation
    have hoptions : (c.perform src n operation w).2.1.options = c.options :=
      (kind_invariant src.transport fun _ options => options = c.options).perform rfl n operation
    have hrest := @ih _ (c.perform src n operation w).2.2 hsized'
    rw [hoptions] at hrest
    intro distance hmem
    unfold accounts Account.skips at hmem
    cases hskipped : (c.account src n operation w).skipped with
    | none =>
      rw [List.filterMap_cons_none hskipped] at hmem
      exact hrest distance hmem
    | some first =>
      rw [List.filterMap_cons_some hskipped, List.mem_cons] at hmem
      rcases hmem with rfl | hmem
      · unfold account at hskipped
        dsimp only at hskipped
        split at hskipped
        · exact skipDistance_bounds hsized.fits hskipped
        · cases hskipped
      · exact hrest distance hmem

/-- A simple channel never skips. -/
theorem skips_of_wholeObject {src : Source σ H ρ} (operations : List Operation) {c : Channel H} {w : World σ ρ}
    (hsimple : c.sizing = .wholeObject) : Account.skips (c.accounts src n operations w) = [] := by
  induction operations generalizing c w with
  | nil => rfl
  | cons operation operations ih =>
    have hsimple' : (c.perform src n operation w).2.1.sizing = .wholeObject :=
      (kind_invariant src.transport fun simple _ => simple).perform hsimple n operation
    have hskipped : (c.account src n operation w).skipped = none := by
      unfold account
      dsimp only
      rw [skipDistance_of_wholeObject hsimple, ite_self]
    unfold accounts Account.skips
    rw [List.filterMap_cons_none hskipped]
    exact ih hsimple'

/-- A recorder that accepts refuses nothing in a run. -/
theorem refusedBy_of_accepts {src : Source σ H ρ} (haccepts : src.Accepts) (operations : List Operation)
    {c : Channel H} {w : World σ ρ} : Account.refusedBy (c.accounts src n operations w) = 0 := by
  induction operations generalizing c w with
  | nil => rfl
  | cons operation operations ih =>
    unfold accounts Account.refusedBy
    rw [List.map_cons, List.sum_cons, account_refused haccepts]
    exact (Int.zero_add _).trans ih

/-- The total of the trace behind a log is what the accounts of the operations on the channel `c` tell of. -/
structure Conserves (c : Channel H) (accounts : List Account) (total : Int) : Prop where
  total_eq : total = Account.returnedBy accounts + Account.refusedBy accounts + (Account.skips accounts).sum
  skips_le : ∀ distance ∈ Account.skips accounts, 1 ≤ distance ∧ distance ≤ c.options.inplaceSeekLimit
  total_le : total ≤ Account.returnedBy accounts + Account.refusedBy accounts +
    (Account.skips accounts).length * c.options.inplaceSeekLimit
  simple : c.sizing = .wholeObject → total = Account.returnedBy accounts + Account.refusedBy accounts

/-- **Every byte that is pulled from a store is accounted for.** No record of the trace has counted less than nothing or
more than was asked for, whatever fails and whenever the trace is cleared. If nothing fails and no range ends early, the
total of the trace is what was returned, what was skipped and what the recorder refused. -/
theorem conserves_bytes {c : Channel (Numbered (TracedRange (StoreRange C)))} (hnew : IsNew c) (n : Nat) (s : σ) (k : κ)
    (r : ρ) :
    (∀ uses : List TracedUse,
      let after := runTraced ⟨store.transport.traced clock observer, recorder, memory⟩ n uses (c.behind Numbered.behind)
        ⟨{ behind := s, observer := k }, r⟩
      ∀ record ∈ after.2.2.transport.trace.requests, 0 ≤ record.bytesRead ∧ record.bytesRead ≤ record.length) ∧
    ∀ operations : List Operation,
      let src : Source (Logged (Traced σ κ)) (Numbered (TracedRange (StoreRange C))) ρ :=
        ⟨(store.transport.traced clock observer).logged, recorder, memory⟩
      let w : World (Logged (Traced σ κ)) ρ := ⟨.start { behind := s, observer := k }, r⟩
      let after := run src n operations c w
      let accounts := c.accounts src n operations w
      (∀ answer ∈ after.1, answer ≠ .stalled) → Call.Flawless after.2.2.transport.calls →
        Conserves c accounts after.2.2.transport.behind.trace.totalBytesRead ∧
          (src.Accepts → Account.refusedBy accounts = 0) := by
  refine ⟨fun uses => runTraced_bounded hnew.behind uses s k r, ?_⟩
  intro operations src w after accounts hends hflawless
  have ht : (store.transport.traced clock observer).Honest c.object (Store.standing σ C).traced :=
    (Store.transport_honest store c.object).traced fun _ => trivial
  have hp : Placed (Store.standing σ C).traced.logged c.object c w.transport := hnew.placed rfl trivial
  have hs : Stands c w.transport := .of_none hnew.range
  have hstart : w.transport.Counted c.range := by
    rw [hnew.range]
    exact .of_total rfl rfl
  have hcounted : after.2.2.transport.Counted after.2.1.range :=
    @Invariant.run _ _ _ src _ (counted_invariant store.transport clock observer) c w hstart n operations
  have hcounts : (store.transport.traced clock observer).Counts :=
    Transport.Counts.traced (Store.transport_counts store)
  have hpulls := run_pulls ht hcounts operations hp hs hends hflawless
  have hnothing : Call.totalReported w.transport.calls = 0 := rfl
  have htotal : after.2.2.transport.behind.trace.totalBytesRead =
      Account.returnedBy accounts + Account.refusedBy accounts + (Account.skips accounts).sum := by
    rw [hcounted.total, ← Account.pulled_sum]
    exact hpulls.trans (Int.zero_add _)
  have hskips : ∀ distance ∈ Account.skips accounts, 1 ≤ distance ∧ distance ≤ c.options.inplaceSeekLimit :=
    skips_le operations hnew.sized
  have hbound : (Account.skips accounts).sum ≤ (Account.skips accounts).length * c.options.inplaceSeekLimit := by
    have hsum := List.sum_le_card_nsmul (Account.skips accounts) (c.options.inplaceSeekLimit : Int) fun distance hmem =>
      (hskips distance hmem).2
    rwa [nsmul_eq_mul] at hsum
  refine ⟨⟨htotal, hskips, by omega, fun hsimple => ?_⟩, fun haccepts => refusedBy_of_accepts haccepts operations⟩
  have hnone : Account.skips accounts = [] := skips_of_wholeObject operations hsimple
  rw [htotal, hnone]
  exact Int.add_zero _

/-- So it is for an object in memory of which two bytes are read, and one more behind three that are skipped. -/
theorem conserves_bytes_skipping :
    let c : Channel (Numbered (TracedRange (StoreRange Memory.Stream))) :=
      adaptive { path := "object", size := 8 } .standard
    let traced : Transport (Traced Memory.Objects Unit) (TracedRange (StoreRange Memory.Stream)) :=
      (Memory.store 2).transport.traced (fun _ => 0) none
    let src : Source (Logged (Traced Memory.Objects Unit)) (Numbered (TracedRange (StoreRange Memory.Stream))) Unit :=
      ⟨traced.logged, none, 8⟩
    let w : World (Logged (Traced Memory.Objects Unit)) Unit :=
      ⟨.start { behind := [("object", ⟨#[1, 2, 3, 4, 5, 6, 7, 8]⟩)], observer := () }, ()⟩
    let operations : List Operation := [.read (some 2), .seek 5 0, .read (some 1)]
    let after := run src 9 operations c w
    let total := after.2.2.transport.behind.trace.totalBytesRead
    total = 6 ∧ Account.returnedBy (c.accounts src 9 operations w) = 3 ∧
      Account.skips (c.accounts src 9 operations w) = [3] ∧ Conserves c (c.accounts src 9 operations w) total := by
  refine ⟨by decide +kernel, by decide +kernel, by decide +kernel, ?_⟩
  exact ((conserves_bytes (.adaptive _ _) 9 _ () ()).2 _ (by decide +kernel) (by decide +kernel)).1

end Channel

end RangeRead
