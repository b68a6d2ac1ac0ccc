import RangeRead.Proofs.Transport.Log
import RangeRead.Proofs.Transport.Scripted

/-!
# The order of a channel's calls

Whatever a transport answers, the calls that a channel makes on it are the calls of one range after the other
(`Ordered`, `calls_ordered`): a range is opened only when all earlier ones have been closed, it is pinned and read, and
it is closed once. At most the last range is still open, and only while the channel holds it. A closed channel makes
no calls.
-/

namespace RangeRead.Channel

variable {σ H ρ : Type} {t : Transport σ H} {o : ObjectHandle} {recorder : Option (Recorder ρ)} {memory : Nat}

/-- The calls on a logged transport are in order, and accord with what the channel holds. -/
structure Ordered (src : Source (Logged σ) (Numbered H) ρ) (c : Channel (Numbered H)) (w : World (Logged σ) ρ) :
    Prop where
  orderly : Orderly w.transport.calls
  /-- Without a range the calls are those of ranges that have all been closed. -/
  settled : c.range = none → Settled w.transport.opened w.transport.calls ∧ AllClosed w.transport.calls
  /-- With one they end with the calls of that range, which is in use. -/
  inUse : ∀ r, c.range = some r → c.closed = false ∧ ∃ before use, w.transport.calls = before ++ use ∧
    Settled r.handle.number before ∧ AllClosed before ∧ InUse r.handle.number use
  /-- Closing the channel leaves it without a range. -/
  close : ∀ n, (c.perform src n .close w).2.1.closed = true ∧
    AllClosed (c.perform src n .close w).2.2.transport.calls
  /-- Once it is closed nothing is called any more. -/
  quiet : c.closed = true → ∀ n operations, (run src n operations c w).2 = (c, w)

theorem run_of_closed {src : Source σ H ρ} {c : Channel H} (hc : c.closed = true) (n : Nat)
    (operations : List Operation) (w : World σ ρ) : (run src n operations c w).2 = (c, w) := by
  induction operations with
  | nil => rfl
  | cons operation operations ih =>
    rw [run_cons]
    have hstep := @perform_of_closed _ _ _ src n c hc operation w
    rw [hstep]
    exact ih

/-- Without a range all calls are settled. -/
theorem settled_of_none {c : Channel (Numbered H)} {s : Logged σ} (h : (callCustody σ H).Of c.range s)
    (hr : c.range = none) : Settled s.opened s.calls ∧ AllClosed s.calls := by
  rw [hr] at h
  have hsettled : Settled s.opened s.calls := h
  exact ⟨hsettled, hsettled.finished.allClosed⟩

/-- With a range the calls before its own are settled. -/
theorem inUse_of_some {c : Channel (Numbered H)} {s : Logged σ} {r : OpenRange (Numbered H)}
    (h : (callCustody σ H).Of c.range s) (hr : c.range = some r) :
    ∃ before use, s.calls = before ++ use ∧ Settled r.handle.number before ∧ InUse r.handle.number use := by
  rw [hr] at h
  obtain ⟨-, before, use, hbefore, huse, hcalls⟩ := h
  exact ⟨before, use, hcalls, hbefore, huse⟩

/-- Between operations the calls of a channel are in the custody that its range tells of. -/
theorem reached_custody {w : World (Logged σ) ρ} {c : Channel (Numbered H)} {s : σ} {r₀ : ρ}
    (h : Reached ⟨t.logged, recorder, memory⟩ o ⟨.start s, r₀⟩ c w) : (callCustody σ H).Of c.range w.transport := by
  refine t.logged_keeps.custody_invariant.reached (fun c₀ hnew _ => ?_) h
  rw [hnew.range]
  exact Settled.none

/-- **The calls of a channel are in order.** -/
theorem calls_ordered {w : World (Logged σ) ρ} {c : Channel (Numbered H)} {s : σ} {r₀ : ρ}
    (h : Reached ⟨t.logged, recorder, memory⟩ o ⟨.start s, r₀⟩ c w) : Ordered ⟨t.logged, recorder, memory⟩ c w := by
  have hcustody := reached_custody h
  have hclosed : ∀ {c' w'}, Reached ⟨t.logged, recorder, memory⟩ o ⟨.start s, r₀⟩ c' w' →
      c'.closed = true → c'.range = none := fun h' =>
    (closed_invariant t.logged).reached (fun c₀ hnew _ _ => hnew.range) h'
  have hquiet : c.closed = true → ∀ n operations, (run ⟨t.logged, recorder, memory⟩ n operations c w).2 = (c, w) :=
    fun hc n operations => run_of_closed hc n operations w
  refine ⟨?_, settled_of_none hcustody, fun r hr => ?_, fun n => ?_, hquiet⟩
  · cases hr : c.range with
    | none => exact (settled_of_none hcustody hr).1.finished.orderly
    | some r =>
      obtain ⟨before, use, hcalls, hbefore, huse⟩ := inUse_of_some hcustody hr
      rw [hcalls]
      exact hbefore.orderly_append huse
  · obtain ⟨before, use, hcalls, hbefore, huse⟩ := inUse_of_some hcustody hr
    have hopen : c.closed = false := by
      cases hc : c.closed with
      | false => rfl
      | true =>
        rw [hclosed h hc] at hr
        cases hr
    exact ⟨hopen, before, use, hcalls, hbefore, hbefore.finished.allClosed, huse⟩
  · have hafter := h.step n .close
    have hdone := @perform_close_closed _ _ _ ⟨t.logged, recorder, memory⟩ n c w
    exact ⟨hdone, (settled_of_none (reached_custody hafter) (hclosed hafter hdone)).2⟩

/-- So they are after a read whose range was cut short when one of two bytes had come. -/
theorem calls_ordered_after_failure :
    let object : ObjectHandle := { path := "object", size := 4 }
    let src : Source (Logged (List Scripted.Turn)) (Numbered Scripted.Span) Unit :=
      ⟨(Scripted.transport ⟨#[1, 2, 3, 4]⟩).logged, none, 4⟩
    let failed := (simple object .standard).perform src 9 (.read (some 2)) ⟨.start [.delivers 1, .ends], ()⟩
    failed.1 = .failed (.objectCutShort 1 object) ∧ failed.2.2.transport.calls.length = 6 ∧
      Ordered src failed.2.1 failed.2.2 := by
  have hnew : IsNew (simple { path := "object", size := 4 } .standard : Channel (Numbered Scripted.Span)) := .simple _ _
  exact ⟨rfl, rfl, calls_ordered (.step (.new hnew rfl) 9 (.read (some 2)))⟩

end RangeRead.Channel
