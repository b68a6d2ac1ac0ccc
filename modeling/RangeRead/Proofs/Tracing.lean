import Mathlib
import RangeRead.Proofs.Trace.Faithful
import RangeRead.Proofs.Transport.Covers
import RangeRead.Proofs.Transport.Scripted

/-!
# Tracing

A traced transport covers the one behind it, unless an observer refuses a record (`traced_covers`): a channel answers
and calls the transport as without the trace, and clearing the trace makes no difference. The trace tells of exactly
the ranges that were asked for since it was last cleared, and its totals and its summary of these ranges only
(`Traces`). So it is after any operations with the trace cleared in between at any time (`traced_faithfully`).
-/

namespace RangeRead

variable {σ H κ ρ : Type} {t : Transport σ H} {clock : Nat → Float} {observer : Option (Observer κ)}

/-- No record is refused. -/
def Observer.Accepts (observer : Option (Observer κ)) : Prop :=
  ∀ record k, (Transport.showRecord observer record k).1 = .ok ()

theorem Transport.traced_covers (t : Transport σ H) (clock : Nat → Float) (haccepts : Observer.Accepts observer) :
    (t.traced clock observer).Covers t TracedRange.behind Traced.behind where
  openRange o start stop s := by
    have hopen : (t.traced clock observer).openRange o start stop s = t.openTraced clock observer o start stop s := rfl
    rcases hshown : showRecord observer (requested clock o start stop s.readings) s.observer with ⟨shown, k⟩
    have hok := haccepts (requested clock o start stop s.readings) s.observer
    rw [hshown] at hok
    unfold requested at hshown
    obtain rfl : shown = .ok () := hok
    rw [hopen]
    unfold openTraced
    rcases t.openRange o start stop s.behind with ⟨opened, state⟩
    dsimp only
    rw [hshown]
    cases opened with
    | error e => rfl
    | ok h => rfl
  pin _ _ _ _ := rfl
  read want h s := by
    have hread : (t.traced clock observer).read want h s = t.readTraced want h s := rfl
    rw [hread]
    unfold readTraced
    rcases t.read want h.behind s.behind with ⟨reply, behind, state⟩
    cases reply with
    | failed e => rfl
    | endOfStream bytes => rfl
    | delivered bytes excess => rfl
  close _ _ := rfl
  note _ _ := rfl

/-! ## Totals -/

/-- What the requests for some ranges come to. -/
inductive Sums (calls : List Call) (openings : List Opening) : Except NumberError TraceSummary → Prop
  | empty (hnone : openings = []) : Sums calls openings (.ok ⟨0, 0, 0, 0, none⟩)
  | sized {least greatest mean} (hleast : (openings.map Opening.size).min? = some least)
      (hgreatest : (openings.map Opening.size).max? = some greatest)
      (hmean : Number.nearest? (mkRat (openings.map Opening.size).sum openings.length) = some mean) :
      Sums calls openings (.ok ⟨openings.length, (openings.map Opening.size).sum,
        (openings.map (Opening.pulled calls)).sum, 1, some ⟨least, greatest, mean⟩⟩)
  /-- No double is near the mean size. -/
  | tooLarge (hsome : openings ≠ [])
      (hmean : Number.nearest? (mkRat (openings.map Opening.size).sum openings.length) = none) :
      Sums calls openings (.error .quotientTooLarge)

/-- A trace tells of ranges of the object at the path, and of what the calls have pulled from them. -/
structure Traces (path : String) (calls : List Call) (openings : List Opening) (trace : RequestTrace) : Prop where
  requests : List.Forall₂ (Opening.Recorded path calls) openings trace.requests
  totalRequests : trace.totalRequests = openings.length
  totalBytes : trace.totalBytes = (openings.map Opening.size).sum
  totalBytesRead : trace.totalBytesRead = (openings.map (Opening.pulled calls)).sum
  summary : Sums calls openings trace.summary

section Totals

variable {path : String} {calls : List Call} {openings : List Opening} {requests : List RequestRecord}

theorem lengths_eq (h : List.Forall₂ (Opening.Recorded path calls) openings requests) :
    requests.map RequestRecord.length = openings.map Opening.size := by
  induction h with
  | nil => rfl
  | cons hrecorded _ ih => rw [List.map_cons, List.map_cons, ih, hrecorded.length_eq]

theorem bytesRead_eq (h : List.Forall₂ (Opening.Recorded path calls) openings requests) :
    requests.map RequestRecord.bytesRead = openings.map (Opening.pulled calls) := by
  induction h with
  | nil => rfl
  | cons hrecorded _ ih => rw [List.map_cons, List.map_cons, ih, hrecorded.bytesRead_eq]

theorem paths_eq (h : List.Forall₂ (Opening.Recorded path calls) openings requests) :
    ∀ record ∈ requests, record.path = path := by
  induction h with
  | nil => simp
  | cons hrecorded _ ih => exact List.forall_mem_cons.mpr ⟨hrecorded.path_eq, ih⟩

/-- All ranges are of one object. -/
theorem uniqueFiles_eq {trace : RequestTrace} (h : ∀ record ∈ trace.requests, record.path = path)
    (hsome : trace.requests ≠ []) : trace.uniqueFiles = 1 := by
  unfold RequestTrace.uniqueFiles
  cases hrequests : trace.requests with
  | nil => exact absurd hrequests hsome
  | cons record records =>
    rw [hrequests, List.forall_mem_cons] at h
    rw [List.map_cons, List.eraseDups_cons]
    have hnone : (records.map RequestRecord.path).filter (fun b => !b == record.path) = [] := by
      rw [List.filter_eq_nil_iff]
      intro p hp
      obtain ⟨record', hmem, rfl⟩ := List.mem_map.mp hp
      simp [h.1, h.2 record' hmem]
    rw [hnone]
    rfl

theorem totalBytes_eq (trace : RequestTrace) : trace.totalBytes = (trace.requests.map RequestRecord.length).sum := by
  unfold RequestTrace.totalBytes
  rw [List.sum_eq_foldl, List.foldl_map]

theorem totalBytesRead_eq (trace : RequestTrace) :
    trace.totalBytesRead = (trace.requests.map RequestRecord.bytesRead).sum := by
  unfold RequestTrace.totalBytesRead
  rw [List.sum_eq_foldl, List.foldl_map]

/-- The totals and the summary are those of the records. -/
theorem Traces.of_requests {trace : RequestTrace}
    (h : List.Forall₂ (Opening.Recorded path calls) openings trace.requests) : Traces path calls openings trace := by
  have htotalRequests : trace.totalRequests = openings.length := h.length_eq.symm
  have htotalBytes : trace.totalBytes = (openings.map Opening.size).sum := by rw [totalBytes_eq, lengths_eq h]
  have htotalBytesRead : trace.totalBytesRead = (openings.map (Opening.pulled calls)).sum := by
    rw [totalBytesRead_eq, bytesRead_eq h]
  refine ⟨h, htotalRequests, htotalBytes, htotalBytesRead, ?_⟩
  unfold RequestTrace.summary RequestTrace.sizes
  rw [lengths_eq h, htotalRequests, htotalBytes, htotalBytesRead]
  cases hopenings : openings with
  | nil =>
    rw [hopenings] at h
    have huniqueFiles : trace.uniqueFiles = 0 := by
      unfold RequestTrace.uniqueFiles
      rw [List.forall₂_nil_left_iff.mp h]
      rfl
    rw [huniqueFiles]
    exact .empty rfl
  | cons opening rest =>
    rw [hopenings] at h
    have hsome : trace.requests ≠ [] := by
      intro hnone
      rw [hnone] at h
      cases h
    rw [uniqueFiles_eq (paths_eq h) hsome]
    cases hmean : Number.nearest? (mkRat ((opening :: rest).map Opening.size).sum (opening :: rest).length) with
    | none =>
      rw [List.map_cons]
      exact .tooLarge (List.cons_ne_nil _ _) hmean
    | some mean =>
      rw [List.map_cons]
      exact .sized List.min?_cons' List.max?_cons' hmean

end Totals

/-! ## Runs -/

/-- What is done with a traced channel: an operation on it, or its trace is cleared. -/
inductive TracedUse
  | perform (operation : Operation)
  | clear

/-- The operations among what is done. -/
def TracedUse.operations (uses : List TracedUse) : List Operation :=
  uses.filterMap fun
    | perform operation => some operation
    | clear => none

namespace Channel

/-- Does operations one after the other, and clears the trace in between. -/
def runTraced (src : Source (Traced σ κ) H ρ) (n : Nat) : List TracedUse → Channel H → World (Traced σ κ) ρ →
    List (Outcome ReadError Answer) × Channel H × World (Traced σ κ) ρ
  | [], c, w => ([], c, w)
  | .perform operation :: uses, c, w =>
    let (answer, c, w) := c.perform src n operation w
    let (answers, c, w) := runTraced src n uses c w
    (answer :: answers, c, w)
  | .clear :: uses, c, w =>
    runTraced src n uses c { w with transport := { w.transport with trace := w.transport.trace.clear } }

section Covered

variable {recorder : Option (Recorder ρ)} {memory n : Nat}

/-- A run with a trace, which may be cleared, comes out as the run without it. -/
theorem runTraced_behind (haccepts : Observer.Accepts observer) (uses : List TracedUse) (c : Channel (TracedRange H))
    (w : World (Traced σ κ) ρ) :
    run ⟨t, recorder, memory⟩ n (TracedUse.operations uses) (c.behind TracedRange.behind) (w.behind Traced.behind) =
      seen TracedRange.behind (World.behind Traced.behind)
        (runTraced ⟨t.traced clock observer, recorder, memory⟩ n uses c w) := by
  induction uses generalizing c w with
  | nil => rfl
  | cons use uses ih =>
    cases use with
    | perform operation =>
      have hperform : perform ⟨t, recorder, memory⟩ n operation (c.behind TracedRange.behind)
          (w.behind Traced.behind) = seen TracedRange.behind (World.behind Traced.behind)
            (perform ⟨t.traced clock observer, recorder, memory⟩ n operation c w) :=
        perform_behind (t.traced_covers clock haccepts) n operation c w
      have hoperations : TracedUse.operations (.perform operation :: uses) =
          operation :: TracedUse.operations uses := rfl
      rw [hoperations, run_cons, hperform]
      dsimp only [seen]
      rw [ih]
      rfl
    | clear =>
      have hoperations : TracedUse.operations (.clear :: uses) = TracedUse.operations uses := rfl
      rw [hoperations]
      exact ih c { w with transport := { w.transport with trace := w.transport.trace.clear } }

/-- What is done first makes no difference to what is done then. -/
theorem runTraced_snoc_clear {src : Source (Traced σ κ) H ρ} (uses : List TracedUse) (c : Channel H)
    (w : World (Traced σ κ) ρ) :
    runTraced src n (uses ++ [.clear]) c w =
      ((runTraced src n uses c w).1, (runTraced src n uses c w).2.1,
        { (runTraced src n uses c w).2.2 with
          transport := { (runTraced src n uses c w).2.2.transport with
            trace := (runTraced src n uses c w).2.2.transport.trace.clear } }) := by
  induction uses generalizing c w with
  | nil => rfl
  | cons use uses ih =>
    cases use with
    | perform operation =>
      rw [List.cons_append]
      unfold runTraced
      dsimp only
      rw [ih]
    | clear =>
      rw [List.cons_append]
      unfold runTraced
      rw [ih]

/-- The trace is faithful to the calls since some clearing, whatever is done. -/
theorem runTraced_faithful (uses : List TracedUse) {c : Channel (TracedRange (Numbered H))}
    {w : World (Traced (Logged σ) κ) ρ} {path : String} {old : List Call}
    (h : Phase.Traced path old ⟨false, c, w.transport⟩) :
    ∃ old, Phase.Traced path old
      ⟨false, (runTraced ⟨t.logged.traced clock observer, recorder, memory⟩ n uses c w).2.1,
        (runTraced ⟨t.logged.traced clock observer, recorder, memory⟩ n uses c w).2.2.transport⟩ := by
  induction uses generalizing c w old with
  | nil => exact ⟨old, h⟩
  | cons use uses ih =>
    cases use with
    | perform operation =>
      have hinvariant := traced_invariant t clock observer path old
      have hperform := @Invariant.perform _ _ _ ⟨t.logged.traced clock observer, recorder, memory⟩ _ hinvariant c w h
        n operation
      exact ih hperform
    | clear =>
      have hclear : Phase.Traced path w.transport.behind.calls
          ⟨false, c, { w.transport with trace := w.transport.trace.clear }⟩ := ⟨h.path_eq, h.faithful.clear, h.links⟩
      exact ih hclear

/-- At first, and when the trace has just been cleared, it is faithful to the calls from then on. -/
theorem runTraced_start {c : Channel (TracedRange (Numbered H))} (hnew : IsNew c) {before : List TracedUse}
    (hbefore : before = [] ∨ ∃ earlier, before = earlier ++ [.clear]) (s : σ) (k : κ) (r : ρ) :
    let cleared := runTraced ⟨t.logged.traced clock observer, recorder, memory⟩ n before c
      ⟨{ behind := .start s, observer := k }, r⟩
    Phase.Traced c.object.path cleared.2.2.transport.behind.calls ⟨false, cleared.2.1, cleared.2.2.transport⟩ := by
  have hstart : @Phase.Traced σ H κ c.object.path [] ⟨false, c, { behind := .start s, observer := k }⟩ := by
    refine ⟨rfl, ⟨List.prefix_rfl, rfl, .nil, rfl, fun i record hrecord => ?_⟩, fun range hrange => ?_⟩
    · cases hrecord
    · rw [hnew.range] at hrange
      cases hrange
  rcases hbefore with rfl | ⟨earlier, rfl⟩
  · exact hstart
  · dsimp only
    rw [runTraced_snoc_clear]
    obtain ⟨old, h⟩ := @runTraced_faithful _ _ _ _ t clock observer recorder memory n earlier c
      ⟨{ behind := .start s, observer := k }, r⟩ _ _ hstart
    exact ⟨h.path_eq, h.faithful.clear, h.links⟩

/-- **A traced channel answers and calls its transport as without the trace, and the trace tells of exactly the ranges
that were asked for since it was last cleared.** -/
theorem traced_faithfully (haccepts : Observer.Accepts observer) {c : Channel (TracedRange (Numbered H))}
    (hnew : IsNew c) {before : List TracedUse} (hbefore : before = [] ∨ ∃ earlier, before = earlier ++ [.clear])
    (operations : List Operation) (n : Nat) (s : σ) (k : κ) (r : ρ) :
    let src : Source (Traced (Logged σ) κ) (TracedRange (Numbered H)) ρ :=
      ⟨t.logged.traced clock observer, recorder, memory⟩
    let cleared := runTraced src n before c ⟨{ behind := .start s, observer := k }, r⟩
    let after := run src n operations cleared.2.1 cleared.2.2
    let calls := after.2.2.transport.behind.calls
    run ⟨t.logged, recorder, memory⟩ n (TracedUse.operations before ++ operations) (c.behind TracedRange.behind)
        ⟨.start s, r⟩ =
      (cleared.1 ++ after.1, after.2.1.behind TracedRange.behind, after.2.2.behind Traced.behind) ∧
    ∃ made, calls = cleared.2.2.transport.behind.calls ++ made ∧
      Traces c.object.path calls (Call.openings made) after.2.2.transport.trace := by
  intro src cleared after calls
  constructor
  · have hcovers := t.logged.traced_covers clock haccepts
    have hcleared : run ⟨t.logged, recorder, memory⟩ n (TracedUse.operations before) (c.behind TracedRange.behind)
        ⟨.start s, r⟩ = seen TracedRange.behind (World.behind Traced.behind) cleared :=
      runTraced_behind haccepts before c ⟨{ behind := Logged.start s, observer := k }, r⟩
    have hafter : run ⟨t.logged, recorder, memory⟩ n operations (cleared.2.1.behind TracedRange.behind)
        (cleared.2.2.behind Traced.behind) = seen TracedRange.behind (World.behind Traced.behind) after :=
      run_behind hcovers n operations _ _
    rw [run_append, hcleared]
    dsimp only [seen]
    rw [hafter]
    rfl
  · have hstart := @runTraced_start _ _ _ _ t clock observer recorder memory n c hnew before hbefore s k r
    have hinvariant := traced_invariant t clock observer c.object.path cleared.2.2.transport.behind.calls
    have hrun := @Invariant.run _ _ _ src _ hinvariant _ _ hstart n operations
    obtain ⟨made, hcalls, hrequests⟩ := hrun.faithful.requests
    exact ⟨made, hcalls, .of_requests hrequests⟩

/-- So it is where the trace is cleared while a range is open, from which two more bytes are read then: they are counted
nowhere, and the one range that is asked for afterwards has pulled one byte. -/
theorem traced_faithfully_cleared :
    let src : Source (Traced (Logged (List Scripted.Turn)) Unit) (TracedRange (Numbered Scripted.Span)) Unit :=
      ⟨(Scripted.transport ⟨#[1, 2, 3, 4, 5, 6, 7, 8]⟩).logged.traced (fun _ => 0) none, none, 8⟩
    let c : Channel (TracedRange (Numbered Scripted.Span)) := adaptive { path := "object", size := 8 } .standard
    let cleared := runTraced src 9 ([.perform (.read (some 2))] ++ [.clear]) c ⟨{ behind := .start [], observer := () }, ()⟩
    let after := run src 9 [.read (some 2), .seek 0 0, .read (some 1)] cleared.2.1 cleared.2.2
    let calls := after.2.2.transport.behind.calls
    after.2.2.transport.trace.requests.map (fun record => (record.start, record.stop, record.bytesRead)) = [(0, 8, 1)] ∧
      (Call.openings calls).map (Opening.pulled calls) = [4, 1] ∧
      ∃ made, calls = cleared.2.2.transport.behind.calls ++ made ∧
        Traces "object" calls (Call.openings made) after.2.2.transport.trace := by
  have haccepts : Observer.Accepts (none : Option (Observer Unit)) := fun _ _ => rfl
  have hnew : IsNew (adaptive { path := "object", size := 8 } .standard :
    Channel (TracedRange (Numbered Scripted.Span))) := .adaptive _ _
  exact ⟨by decide +kernel, by decide +kernel,
    (traced_faithfully haccepts hnew (.inr ⟨_, rfl⟩) [.read (some 2), .seek 0 0, .read (some 1)] 9 [] () ()).2⟩

end Covered

end Channel

end RangeRead
