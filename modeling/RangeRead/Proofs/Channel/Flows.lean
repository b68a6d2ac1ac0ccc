import RangeRead.Proofs.Channel.Draws

/-!
# How reads come by their bytes

Over a truthful transport that does not fail a read comes by its bytes in one of four ways (`Flows`): no range is open
and one is opened at the position; the open range does not serve the position and is left for a new one; it serves the
whole read; or it serves the read up to its end, where a new one takes over. Before that the range is brought to the
position (`Brings`), by giving up the bytes before it if it is kept.

Every delivery that does not stall goes in one of these ways (`Delivers.flows`).
-/

namespace RangeRead.Channel

variable {σ H : Type} {t : Transport σ H} {o : ObjectHandle} {data : ByteArray} {v : View σ H}

/-- The channel after it has left the open range for another one. -/
def leaving (c : Channel H) (r : OpenRange H) : Channel H :=
  { c with sizing := (c.sizing.observeSeek c.position r.cursor).2, range := none }

/-- The open range serves a read at the position: its cursor is there, or may skip to it. -/
def Keeps (c : Channel H) (r : OpenRange H) : Prop :=
  c.position = r.cursor ∨ c.sizing.canSkip c.position r.cursor r.stop = true

/-- How a read of `want` bytes comes by them: what becomes of the channel, and the calls that are made. -/
inductive Flows (data : ByteArray) (c : Channel (Numbered H)) (want : Int) : Channel (Numbered H) → List Call → Prop
  /-- No range was open. -/
  | opens {handle reads} (hr : c.range = none) (hreads : ∀ call ∈ reads, call.Reads handle.number)
      (hwritten : Call.written reads = part data c.position (c.reach want)) :
    Flows data c want (c.afterOpening want handle)
      (Call.opening handle.number c.position (c.nextStop want) ++ reads)
  /-- The open range did not serve the position. -/
  | leaves {r answer handle reads} (hr : c.range = some r) (hleaves : ¬c.Keeps r)
      (hreads : ∀ call ∈ reads, call.Reads handle.number)
      (hwritten : Call.written reads = part data c.position (c.reach want)) :
    Flows data c want ((c.leaving r).afterOpening want handle)
      (.closed r.handle.number answer ::
        (Call.opening handle.number c.position ((c.leaving r).nextStop want) ++ reads))
  /-- The open range served the whole read. -/
  | stays {r handle reads} (hr : c.range = some r) (hkeeps : c.Keeps r) (hreach : c.reach want ≤ r.stop)
      (hreads : ∀ call ∈ reads, call.Reads r.handle.number)
      (hwritten : Call.written reads = part data r.cursor (c.reach want)) :
    Flows data c want (c.afterStaying want handle r.stop) reads
  /-- The open range served the read up to its end, and another one from there on. -/
  | crosses {r old answer handle reads} (hr : c.range = some r) (hkeeps : c.Keeps r) (hreach : r.stop < c.reach want)
      (hold : ∀ call ∈ old, call.Reads r.handle.number)
      (hfirst : Call.written old = part data r.cursor r.stop)
      (hreads : ∀ call ∈ reads, call.Reads handle.number)
      (hwritten : Call.written reads = part data r.stop (c.reach want)) :
    Flows data c want ((c.spending r).afterOpening (c.position + want - r.stop) handle)
      (old ++ .closed r.handle.number answer ::
        (Call.opening handle.number r.stop ((c.spending r).nextStop (c.position + want - r.stop)) ++ reads))

/-! ## Bringing the range to the position -/

/-- How the range is brought to the position: what becomes of the channel and the log. -/
inductive Brings (data : ByteArray) (c : Channel (Numbered H)) (s : Logged σ) :
    Channel (Numbered H) → Logged σ → Prop
  /-- No range is open. -/
  | none (hr : c.range = none) : Brings data c s c s
  /-- The open range serves the position, and gives up the bytes before it. -/
  | keeps {r handle s₁} (hr : c.range = some r) (hkeeps : c.Keeps r) (hle : r.cursor ≤ c.position)
      (hnumber : handle.number = r.handle.number)
      (hdraws : s.Draws s₁ r.handle.number (part data r.cursor c.position)) :
    Brings data c s { c with range := some ⟨handle, c.position, r.stop⟩ } s₁
  /-- The open range does not serve the position, and is closed. -/
  | leaves {r answer s₁} (hr : c.range = some r) (hleaves : ¬c.Keeps r)
      (hcalls : s₁.calls = s.calls ++ [.closed r.handle.number answer]) : Brings data c s (c.leaving r) s₁

variable (ht : t.Truthful o data v) (hsteady : t.Steady o v)
include ht hsteady

section Deliveries

variable {n want : Nat} {gap : Nat → Nat → ByteArray} {c c₁ c' : Channel (Numbered H)} {s s₁ s' : Logged σ}
  {a : Outcome ReadError Filling}

/-- The range is brought to the position as `Brings` says, unless that stalls. -/
theorem reposition_brings {b : Outcome ReadError Unit} (h : reposition t.logged n c s = (b, c₁, s₁))
    (hp : Placed v.logged o c s) (hends : b ≠ .stalled) : b = .done () ∧ Brings data c s c₁ s₁ := by
  cases hr : c.range with
  | none =>
    rw [reposition_of_none n hr] at h
    cases h
    exact ⟨rfl, .none hr⟩
  | some r =>
    rw [reposition_of_range n hr] at h
    split at h
    · rename_i hat
      cases h
      have hrange : some (⟨r.handle, c.position, r.stop⟩ : OpenRange (Numbered H)) = c.range := by
        rw [hat, hr]
      have hbrings : Brings data c s { c with range := some ⟨r.handle, c.position, r.stop⟩ } s :=
        .keeps hr (.inl hat) (Int.le_of_eq hat.symm) rfl (by
          rw [hat, part_self]
          exact .of_eq _ rfl)
      rw [hrange] at hbrings
      exact ⟨rfl, hbrings⟩
    · rename_i hne
      split at h
      · rename_i hskip
        obtain ⟨-, hahead, hinside⟩ := canSkip_ahead hskip
        have hskips := skips_skip (t := t.logged) n c s
        rw [h] at hskips
        obtain ⟨rfl, handle, hnumber, rfl, hdraws⟩ := hskips.draws ht hsteady hp hr hahead hinside hends
        exact ⟨rfl, .keeps hr (.inr hskip) (Int.le_of_lt hahead) hnumber hdraws⟩
      · rename_i hskip
        cases h
        obtain ⟨answer, -, hcalls⟩ := @Transport.logged_closeQuietly _ _ t c.object r.handle
          (noteChange t.logged c.object (c.sizing.observeSeek c.position r.cursor).1 s)
        rw [noteChange_calls] at hcalls
        exact ⟨rfl, .leaves hr (fun hkeeps => hkeeps.elim hne hskip) hcalls⟩

/-! ## Deliveries -/

/-- A filling at the position of an open range, from which bytes have been skipped. -/
theorem Fills.flows_of_range (h : Fills t.logged want gap n {} c₁ s₁ a c' s') {r : OpenRange (Numbered H)}
    (hr : c.range = some r) (hkeeps : c.Keeps r) {handle : Numbered H} (hnumber : handle.number = r.handle.number)
    (hc₁ : c₁ = { c with range := some ⟨handle, c.position, r.stop⟩ }) (hp : Placed v.logged o c₁ s₁)
    (hle : r.cursor ≤ c.position) (hskipped : s.Draws s₁ r.handle.number (part data r.cursor c.position))
    (hwant : 0 < want) (hends : a ≠ .stalled) :
    (∃ got, a = .done got) ∧ ∃ made, s'.calls = s.calls ++ made ∧ Flows data c want c' made := by
  subst hc₁
  have ha : Aligned { c with range := some ⟨handle, c.position, r.stop⟩ } := .of_range rfl rfl
  have hnothing : ({} : Filling).count = 0 := rfl
  have hneed : (want : Int) - ({} : Filling).count = want := Int.sub_zero _
  have hlt : ({} : Filling).count < (want : Int) := Int.natCast_pos.mpr hwant
  have hpos : c.position ≤ c.reach want := by
    have hsize := hp.le_size
    rw [← hp.object] at hsize
    unfold reach
    dsimp only at hsize
    omega
  by_cases hstop : c.reach want ≤ r.stop
  · obtain ⟨hdone, handle', -, hc', hdraws⟩ :=
      h.stays ht hsteady hp ha rfl (Int.le_refl 0) hlt (by rw [hneed]; exact hstop) hends
    rw [hneed] at hc' hdraws
    have hall : s.Draws s' r.handle.number (part data r.cursor (c.reach want)) := by
      rw [← part_append_part data hle hpos]
      rw [← hnumber] at hskipped ⊢
      exact hskipped.trans hdraws
    obtain ⟨reads, hcalls, hreads, hwritten⟩ := hall
    have hflows : Flows data c want (c.afterStaying want handle' r.stop) reads :=
      .stays hr hkeeps hstop hreads hwritten
    exact ⟨hdone, reads, hcalls, hc' ▸ hflows⟩
  · have hshort : r.stop < c.reach want := Int.not_le.mp hstop
    obtain ⟨n', got', handle', s₂, h0, hleft, hnumber', hdraws, hp', hrest⟩ :=
      h.crosses ht hsteady hp ha rfl (Int.le_refl 0) (by rw [hneed]; exact hshort) hends
    rw [hneed] at hleft
    have hneed' : (want : Int) - got'.count = c.position + want - r.stop := by
      dsimp only at hleft
      omega
    have hreach : (c.spending r).reach (c.position + want - r.stop) = c.reach want := by
      unfold reach spending
      dsimp only
      omega
    have hbefore : c.position ≤ r.stop := (hp.range rfl).2.le
    have hlt' : got'.count < (want : Int) := by
      unfold reach at hshort
      omega
    obtain ⟨hdone, handle'', s₃, hopens, hc', hdrawn⟩ := hrest.opens ht hsteady hp' rfl h0 hlt' hends
    rw [hneed'] at hopens hc' hdrawn
    obtain ⟨answer, -, hclosed⟩ := @Transport.logged_closeQuietly _ _ t c.object handle' s₂
    have hfirst : s.Draws s₂ r.handle.number (part data r.cursor r.stop) := by
      rw [← part_append_part data hle hbefore]
      rw [← hnumber] at hskipped ⊢
      exact hskipped.trans hdraws
    obtain ⟨old, hcalls, hold, hfirst⟩ := hfirst
    obtain ⟨reads, hcalls', hreads, hwritten⟩ := hdrawn
    have hflows : Flows data c want ((c.spending r).afterOpening (c.position + want - r.stop) handle'')
        (old ++ .closed r.handle.number answer ::
          (Call.opening handle''.number r.stop ((c.spending r).nextStop (c.position + want - r.stop)) ++ reads)) :=
      .crosses hr hkeeps hshort hold hfirst hreads (hwritten.trans (congrArg (part data r.stop) hreach))
    have hnumber'' : handle'.number = r.handle.number := hnumber'.trans hnumber
    refine ⟨hdone, _, ?_, hc' ▸ hflows⟩
    rw [hcalls', hopens, hclosed, hcalls, hnumber'']
    simp [spending]

/-- A filling behind what was brought to the position. -/
theorem Fills.flows (h : Fills t.logged want gap n {} c₁ s₁ a c' s') (hbrings : Brings data c s c₁ s₁)
    (hp : Placed v.logged o c₁ s₁) (hwant : 0 < want) (hends : a ≠ .stalled) :
    (∃ got, a = .done got) ∧ ∃ made, s'.calls = s.calls ++ made ∧ Flows data c want c' made := by
  have hneed : (want : Int) - ({} : Filling).count = want := Int.sub_zero _
  have hlt : ({} : Filling).count < (want : Int) := Int.natCast_pos.mpr hwant
  cases hbrings with
  | none hr =>
    obtain ⟨hdone, handle, s₂, hopens, hc', reads, hcalls, hreads, hwritten⟩ :=
      h.opens ht hsteady hp hr (Int.le_refl 0) hlt hends
    rw [hneed] at hopens hc' hwritten
    have hflows : Flows data c want (c.afterOpening want handle) _ := .opens hr hreads hwritten
    refine ⟨hdone, _, ?_, hc' ▸ hflows⟩
    rw [hcalls, hopens, List.append_assoc]
  | keeps hr hkeeps hle hnumber hdraws =>
    exact h.flows_of_range ht hsteady hr hkeeps hnumber rfl hp hle hdraws hwant hends
  | @leaves r answer _ hr hleaves hclosed =>
    obtain ⟨hdone, handle, s₂, hopens, hc', reads, hcalls, hreads, hwritten⟩ :=
      h.opens ht hsteady hp rfl (Int.le_refl 0) hlt hends
    rw [hneed] at hopens hc' hwritten
    have hflows : Flows data c want ((c.leaving r).afterOpening want handle) (.closed r.handle.number answer :: _) :=
      .leaves hr hleaves hreads hwritten
    refine ⟨hdone, _, ?_, hc' ▸ hflows⟩
    rw [hcalls, hopens, hclosed]
    simp [leaving]

/-- Every delivery that does not stall comes to its end, and goes as `Flows` says. -/
theorem Delivers.flows (h : Delivers t.logged n want gap c s a c' s') (hp : Placed v.logged o c s) (hwant : 0 < want)
    (hends : a ≠ .stalled) :
    (∃ got, a = .done got) ∧ ∃ made, s'.calls = s.calls ++ made ∧ Flows data c want c' made := by
  have hp₁ := (reposition_placed (n := n) ht.logged.toHonest hp).1
  cases h with
  | notSkipped hreposition => cases (reposition_brings ht hsteady hreposition hp nofun).1
  | stalled _ => exact absurd rfl hends
  | failed hreposition hfills =>
    rw [hreposition] at hp₁
    have hbrings := (reposition_brings ht hsteady hreposition hp nofun).2
    obtain ⟨⟨got, hgot⟩, -⟩ := hfills.flows ht hsteady hbrings hp₁ hwant nofun
    cases hgot
  | filled hreposition hfills _ =>
    rw [hreposition] at hp₁
    have hbrings := (reposition_brings ht hsteady hreposition hp nofun).2
    exact hfills.flows ht hsteady hbrings hp₁ hwant hends

end Deliveries

end RangeRead.Channel
