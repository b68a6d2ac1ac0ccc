import RangeRead.Proofs.Channel.Placed
import RangeRead.Proofs.Channel.Sized
import RangeRead.Proofs.Store.Served
import RangeRead.Proofs.Transport.Scripted
import RangeRead.Proofs.Transport.Windows

/-!
# What a channel holds to be so is so

Between operations a channel and its honest transport agree (`Represented`): the position lies in the object, the open
range stands in its handle where the channel holds it to stand, inside the object, and it reaches as far as the kind and
the mode of the channel demand. All ranges that were ever asked for are windows of the object. So it is in every state
that a channel comes to, whatever failed or ended early (`represented`).
-/

namespace RangeRead.Channel

variable {σ H ρ : Type} {t : Transport σ H} {o : ObjectHandle} {v : View σ H} {recorder : Option (Recorder ρ)}
  {memory : Nat}

/-- The channel `c` represents the state `s` of its transport. -/
structure Represented (v : View σ H) (o : ObjectHandle) (c : Channel (Numbered H)) (s : Logged σ) : Prop where
  object : c.object = o
  position : 0 ≤ c.position ∧ c.position ≤ o.size
  noRange : c.range = none → v.idle s.behind
  /-- The handle of an open range stands at the cursor and ends at the stop that the channel knows. -/
  range : ∀ r, c.range = some r → v.stands r.handle.behind r.cursor r.stop s.behind ∧
    0 ≤ r.cursor ∧ r.cursor ≤ r.stop ∧ r.stop ≤ o.size
  /-- The range of an adaptive channel ends where its strategy last decided, and before the end of the object only while
  reads count as random. -/
  adaptive : ∀ strategy r, c.sizing = .adaptive strategy → c.range = some r →
    strategy.lastEnd = r.stop ∧ (c.options.accessPattern = .sequential → r.stop = o.size) ∧
      (strategy.isRandom = false → r.stop = o.size)
  simple : ∀ r, c.sizing = .wholeObject → c.range = some r → r.cursor = c.position ∧ r.stop = o.size
  /-- Every range that was asked for is one of the object, which no transport over a store refuses as invalid. -/
  asked : ∀ window ∈ Call.windows s.calls, 0 ≤ window.1 ∧ window.1 ≤ window.2 ∧ window.2 ≤ o.size ∧
    ∀ C : Type, ∃ r : StoreRange C, Store.openRange o window.1 window.2 = .ok r

/-- The range of a sized adaptive channel. -/
theorem Sized.adaptive {c : Channel H} {strategy : Strategy} {r : OpenRange H} (h : Sized c)
    (hsizing : c.sizing = .adaptive strategy) (hr : c.range = some r) :
    strategy.lastEnd = r.stop ∧ (c.options.accessPattern = .sequential → r.stop = c.object.size) ∧
      (strategy.isRandom = false → r.stop = c.object.size) := by
  obtain ⟨hfits, hadmits⟩ := h
  have hrange := hadmits r hr
  rw [hsizing] at hfits hrange
  obtain ⟨hlast, hsequential⟩ := hrange
  exact ⟨hlast, fun hmode => hsequential (hfits.sequential hmode), hsequential⟩

/-- **A channel represents the state of its transport**, over every honest transport and in every state that it comes
to. -/
theorem represented (ht : t.Honest o v) {s : σ} (hidle : v.idle s) {r : ρ} {c : Channel (Numbered H)}
    {w : World (Logged σ) ρ} (h : Reached ⟨t.logged, recorder, memory⟩ o ⟨.start s, r⟩ c w) :
    Represented v o c w.transport := by
  have hstart : (v.logged.and (Logged.AsksWithin o)).idle (.start s) := ⟨hidle, nofun⟩
  have hp : Placed (v.logged.and (Logged.AsksWithin o)) o c w.transport :=
    (placed_invariant (ht.logged.and (t.logged_asksWithin o))).reached (fun _ hnew ho => hnew.placed ho hstart) h
  have hsized : Sized c := (sized_invariant t.logged).reached (fun _ hnew _ => hnew.sized) h
  obtain ⟨hobject, h0, hle, hboth⟩ := hp
  obtain ⟨hholds, hasked⟩ := View.holds_and hboth
  refine ⟨hobject, ⟨h0, hle⟩, fun hr => ?_, fun r hr => ?_, fun strategy r hsizing hr => ?_, fun r hsizing hr => ?_,
    fun window hmem => ?_⟩
  · rw [hr] at hholds
    exact hholds
  · rw [hr] at hholds
    obtain ⟨hstands, hw⟩ := hholds
    exact ⟨hstands, hw.nonneg, hw.le, hw.le_size⟩
  · rw [← hobject]
    exact hsized.adaptive hsizing hr
  · have hrange := hsized.admits r hr
    rw [hsizing, hobject] at hrange
    exact hrange
  · have hw : o.Window window.1 window.2 := hasked window hmem
    exact ⟨hw.nonneg, hw.le, hw.le_size, fun C => ⟨_, Store.openRange_window hw⟩⟩

/-- So it is after a range has ended early and a seek backwards has made reads random: the range that is open then is
one of two bytes, the first of which has been read. -/
theorem represented_random :
    let object : ObjectHandle := { path := "object", size := 8 }
    let src : Source (Logged (List Scripted.Turn)) (Numbered Scripted.Span) Unit :=
      ⟨(Scripted.transport ⟨#[1, 2, 3, 4, 5, 6, 7, 8]⟩).logged, none, 8⟩
    let c : Channel (Numbered Scripted.Span) := adaptive object { minRangeRequestSize := 2 }
    let after := run src 9 [.read (some 4), .read (some 4), .seek 1 0, .read (some 1)] c
      ⟨.start [.delivers 2, .ends], ()⟩
    Call.windows after.2.2.transport.calls = [(0, 8), (0, 8), (1, 3)] ∧ after.2.1.isRandom = some true ∧
      (after.2.1.range.map fun r => (r.cursor, r.stop)) = some (2, 3) ∧
      Represented (Scripted.view fun _ => True) object after.2.1 after.2.2.transport := by
  have ht := Scripted.truthful (P := fun _ => True) (fun _ => trivial) { path := "object", size := 8 }
    ⟨#[1, 2, 3, 4, 5, 6, 7, 8]⟩
  have hnew : IsNew (adaptive { path := "object", size := 8 } { minRangeRequestSize := 2 } :
    Channel (Numbered Scripted.Span)) := .adaptive _ _
  exact ⟨by decide +kernel, by decide +kernel, by decide +kernel,
    represented ht.toHonest trivial ((Reached.new hnew rfl).run 9 _)⟩

end RangeRead.Channel
