import Mathlib.Algebra.Ring.Int.Defs
import RangeRead.Proofs.Channel.Incidents
import RangeRead.Proofs.Channel.Sized
import RangeRead.Proofs.Reporting

/-!
# What is pulled while nothing goes wrong

The calls of a log are flawless if none of them failed and no range told its end before it stood there
(`Call.Flawless`). What its reads have reported by then is counted by `Call.totalReported`.

With flawless calls a skip reports the bytes between the cursor and the position (`Skips.pulls`), and filling a buffer
those that it counts (`Fills.pulls`). So a delivery comes to its end, and has pulled what it counts and what it skipped
before (`Delivers.pulls`).
-/

namespace RangeRead

variable {σ H : Type} {t : Transport σ H} {o : ObjectHandle}

/-! ## Flawless calls -/

namespace Call

/-- How many bytes a call reported. -/
def reported : Call → Int
  | read _ _ (.delivered bytes excess) => bytes.size + excess
  | read _ _ (.failed _) | read _ _ (.endOfStream _) | refused .. | opened .. | pinned .. | closed .. => 0

/-- How many bytes calls reported, whatever range they came from. -/
def totalReported (calls : List Call) : Int := (calls.map reported).sum

@[simp] theorem totalReported_append (calls more : List Call) :
    totalReported (calls ++ more) = totalReported calls + totalReported more := by
  simp [totalReported]

@[simp] theorem totalReported_singleton (call : Call) : totalReported [call] = call.reported := by
  simp [totalReported]

/-- A call that came after others failed, or told the end of a range that does not stand at its end. -/
def IsFault (before : List Call) : Call → Prop
  | refused .. | pinned _ _ _ (.error _) | read _ _ (.failed _) => True
  | read number _ (.endOfStream _) => (standing number before).1 ≠ (standing number before).2
  | opened .. | pinned _ _ _ (.ok _) | read _ _ (.delivered ..) | closed .. => False

instance (before : List Call) : (call : Call) → Decidable (call.IsFault before)
  | refused .. | pinned _ _ _ (.error _) | read _ _ (.failed _) => .isTrue trivial
  | read number _ (.endOfStream _) =>
    inferInstanceAs (Decidable ((standing number before).1 ≠ (standing number before).2))
  | opened .. | pinned _ _ _ (.ok _) | read _ _ (.delivered ..) | closed .. => .isFalse id

/-- No call failed, and no range told its end early. A range that could not be closed does not matter. -/
def Flawless (calls : List Call) : Prop := ∀ i, (h : i < calls.length) → ¬calls[i].IsFault (calls.take i)

instance (calls : List Call) : Decidable (Flawless calls) :=
  inferInstanceAs (Decidable (∀ i, (h : i < calls.length) → ¬calls[i].IsFault (calls.take i)))

variable {calls more : List Call}

/-- What came first was flawless as well. -/
theorem Flawless.of_prefix (h : Flawless more) (hstart : calls <+: more) : Flawless calls := by
  obtain ⟨rest, rfl⟩ := hstart
  intro i hi
  have hall := h i (by simp only [List.length_append]; omega)
  rwa [List.getElem_append_left hi, List.take_append_of_le_length (Nat.le_of_lt hi)] at hall

/-- None of the calls is a fault. -/
theorem Flawless.not_fault {call : Call} (h : Flawless (calls ++ call :: more)) : ¬call.IsFault calls := by
  have hcall := h calls.length (by simp)
  simpa using hcall

end Call

namespace Transport

/-- With flawless calls a range is opened and pinned. -/
theorem logged_openPinned_not_error {start stop : Int} {s s' : Logged σ} {e : ReadError}
    (heq : t.logged.openPinned o start stop s = (.error e, s')) : ¬Call.Flawless s'.calls := by
  intro hflawless
  cases Opens.of_eq heq with
  | refused hopen =>
    rw [(logged_openRange_error hopen).2] at hflawless
    exact hflawless.not_fault trivial
  | @notSought _ _ _ h₂ s₂ hopen hseek =>
    obtain ⟨answer, -, hclosed⟩ := @logged_closeQuietly _ _ t o h₂ s₂
    rw [hclosed, (logged_pin hseek).2.2, List.append_assoc] at hflawless
    exact hflawless.not_fault trivial
  | @notLimited _ _ _ _ _ _ h₃ s₃ hopen hseek hlimit =>
    obtain ⟨answer, -, hclosed⟩ := @logged_closeQuietly _ _ t o h₃ s₃
    rw [hclosed, (logged_pin hlimit).2.2, List.append_assoc] at hflawless
    exact hflawless.not_fault trivial

/-- Opening a range has reported nothing. -/
theorem logged_openPinned_reported {start stop : Int} {s s' : Logged σ} {a : Except ReadError (Numbered H)}
    (heq : t.logged.openPinned o start stop s = (a, s')) :
    Call.totalReported s'.calls = Call.totalReported s.calls := by
  cases Opens.of_eq heq with
  | refused hopen =>
    rw [(logged_openRange_error hopen).2]
    simp [Call.totalReported, Call.reported]
  | @notSought _ _ _ h₂ s₂ hopen hseek =>
    obtain ⟨answer, -, hclosed⟩ := @logged_closeQuietly _ _ t o h₂ s₂
    rw [hclosed, (logged_pin hseek).2.2, (logged_openRange_ok hopen).2.2]
    simp [Call.totalReported, Call.reported]
  | @notLimited _ _ _ _ _ _ h₃ s₃ hopen hseek hlimit =>
    obtain ⟨answer, -, hclosed⟩ := @logged_closeQuietly _ _ t o h₃ s₃
    rw [hclosed, (logged_pin hlimit).2.2, (logged_pin hseek).2.2, (logged_openRange_ok hopen).2.2]
    simp [Call.totalReported, Call.reported]
  | opened hopen hseek hlimit =>
    rw [logged_openPinned_ok heq, Call.totalReported_append]
    exact Int.add_zero _

/-- A read has reported what its reply tells. -/
theorem logged_read_reported {want : Nat} {h h' : Numbered H} {s s' : Logged σ} {reply : Reply}
    (hread : t.logged.read want h s = (reply, h', s')) :
    Call.totalReported s'.calls = Call.totalReported s.calls + (Call.read h.number want reply).reported := by
  rw [(logged_read hread).2.2, Call.totalReported_append, Call.totalReported_singleton]

theorem logged_closeQuietly_reported (o : ObjectHandle) (h : Numbered H) (s : Logged σ) :
    Call.totalReported (t.logged.closeQuietly o h s).calls = Call.totalReported s.calls := by
  obtain ⟨answer, -, hcalls⟩ := @logged_closeQuietly _ _ t o h s
  rw [hcalls, Call.totalReported_append]
  exact Int.add_zero _

/-- With flawless calls no read fails. -/
theorem logged_read_not_failed {want : Nat} {h h' : Numbered H} {s s' : Logged σ} {e : ReadError}
    (hread : t.logged.read want h s = (.failed e, h', s')) : ¬Call.Flawless (t.logged.closeQuietly o h' s').calls := by
  intro hflawless
  obtain ⟨answer, -, hclosed⟩ := @logged_closeQuietly _ _ t o h' s'
  rw [hclosed, (logged_read hread).2.2, List.append_assoc] at hflawless
  exact hflawless.not_fault trivial

end Transport

namespace Channel

/-- With flawless calls a range tells its end only where it stands there. -/
theorem Stands.at_end {c : Channel (Numbered H)} {s s₁ s' : Logged σ} {r : OpenRange (Numbered H)} {want : Nat}
    {bytes : ByteArray} {h : Numbered H} {call : Call} (hs : Stands c s) (hr : c.range = some r)
    (hread : t.logged.read want r.handle s = (.endOfStream bytes, h, s₁)) (hcalls : s'.calls = s₁.calls ++ [call])
    (hflawless : Call.Flawless s'.calls) : r.cursor = r.stop := by
  rw [hcalls, (Transport.logged_read hread).2.2, List.append_assoc] at hflawless
  have hend : ¬(Call.standing r.handle.number s.calls).1 ≠ (Call.standing r.handle.number s.calls).2 :=
    hflawless.not_fault
  rw [hs r hr] at hend
  exact Decidable.not_not.mp hend

/-! ## Skipping -/

/-- How many bytes a read skips first, if the open range serves it by a skip. -/
def skipDistance (c : Channel H) : Option Int :=
  match c.range with
  | none => none
  | some r => if c.sizing.canSkip c.position r.cursor r.stop then some (c.position - r.cursor) else none

/-- A simple channel never skips. -/
theorem skipDistance_of_wholeObject {c : Channel H} (h : c.sizing = .wholeObject) : c.skipDistance = none := by
  unfold skipDistance
  rw [h]
  cases c.range <;> rfl

/-- A skip goes ahead, and not beyond the limit. -/
theorem skipDistance_bounds {c : Channel H} (hfits : c.sizing.Fits c.options) {distance : Int}
    (h : c.skipDistance = some distance) : 1 ≤ distance ∧ distance ≤ c.options.inplaceSeekLimit := by
  unfold skipDistance at h
  split at h
  · cases h
  · split at h
    · rename_i r hr hskip
      cases h
      cases hsizing : c.sizing with
      | wholeObject =>
        rw [hsizing] at hskip
        cases hskip
      | adaptive strategy =>
        rw [hsizing] at hskip hfits
        have hoptions : strategy.options = c.options := hfits.options_eq
        simp only [Sizing.canSkip, Strategy.canSkip, Bool.and_eq_true, decide_eq_true_eq, hoptions] at hskip
        omega
    · cases h

/-- A skip that ends has pulled the bytes on the way. -/
theorem Skips.pulls (ht : t.Counts) {n : Nat} {c c' : Channel (Numbered H)} {s s' : Logged σ}
    {a : Outcome ReadError Unit} (h : Skips t.logged n c s a c' s') (hs : Stands c s) {r : OpenRange (Numbered H)}
    (hr : c.range = some r) (hahead : r.cursor < c.position) (hinside : c.position < r.stop)
    (hflawless : Call.Flawless s'.calls) (hends : a ≠ .stalled) :
    a = .done () ∧ Call.totalReported s'.calls = Call.totalReported s.calls + (c.position - r.cursor) := by
  induction h generalizing r with
  | stalled => exact absurd rfl hends
  | noRange hnone =>
    rw [hnone] at hr
    cases hr
  | failed hr' hread => exact absurd hflawless (Transport.logged_read_not_failed hread)
  | @ended n c s r' bytes h s' hr' hread =>
    cases hr'.symm.trans hr
    -- the target lies before the end of the range
    obtain ⟨answer, -, hclosed⟩ :=
      @Transport.logged_closeQuietly _ _ t c.object h (t.logged.note (.endedInSkip c.position c.object) s')
    have hend := hs.at_end hr hread hclosed hflawless
    omega
  | @arrived n c s r' bytes excess h s' hr' hread hle =>
    cases hr'.symm.trans hr
    obtain ⟨-, hwant⟩ := ht.logged hread
    have htotal := Transport.logged_read_reported hread
    have hreported : (Call.read r'.handle.number (min skipBufferSize (c.position - r'.cursor).toNat)
      (.delivered bytes excess)).reported = bytes.size + excess := rfl
    exact ⟨rfl, by omega⟩
  | @onward n c s r' bytes excess h s₁ a c' s' hr' hread hlt _ ih =>
    cases hr'.symm.trans hr
    have htotal := Transport.logged_read_reported hread
    have hreported : (Call.read r'.handle.number (min skipBufferSize (c.position - r'.cursor).toNat)
      (.delivered bytes excess)).reported = bytes.size + excess := rfl
    obtain ⟨rfl, hrest⟩ := ih (hs.read hr hread rfl rfl rfl) rfl hlt hinside hflawless hends
    have hcursor : (r'.advance h (bytes.size + excess)).cursor = r'.cursor + (bytes.size + excess) := rfl
    dsimp only at hrest
    exact ⟨rfl, by omega⟩

/-- Before the buffer is filled, what is skipped has been pulled. -/
theorem reposition_pulls (ht : t.Counts) {n : Nat} {c c₁ : Channel (Numbered H)} {s s₁ : Logged σ}
    {a : Outcome ReadError Unit} (h : reposition t.logged n c s = (a, c₁, s₁)) (hs : Stands c s)
    (hflawless : Call.Flawless s₁.calls) (hends : a ≠ .stalled) :
    a = .done () ∧ Call.totalReported s₁.calls = Call.totalReported s.calls + c.skipDistance.getD 0 := by
  unfold skipDistance
  cases hr : c.range with
  | none =>
    rw [reposition_of_none n hr] at h
    cases h
    exact ⟨rfl, (Int.add_zero _).symm⟩
  | some r =>
    rw [reposition_of_range n hr] at h
    dsimp only
    by_cases hskip : c.sizing.canSkip c.position r.cursor r.stop = true
    · obtain ⟨-, hahead, hinside⟩ := canSkip_ahead hskip
      rw [if_neg (Int.ne_of_gt hahead), if_pos hskip] at h
      have hskips := skips_skip (t := t.logged) n c s
      rw [h] at hskips
      rw [if_pos hskip]
      exact hskips.pulls ht hs hr hahead hinside hflawless hends
    · rw [if_neg hskip] at h ⊢
      split at h
      · cases h
        exact ⟨rfl, (Int.add_zero _).symm⟩
      · cases h
        rw [Transport.logged_closeQuietly_reported, noteChange_calls]
        exact ⟨rfl, (Int.add_zero _).symm⟩

/-! ## Filling -/

/-- Having a range pulls nothing. -/
theorem ensureRange_reported {need : Int} {c c₁ : Channel (Numbered H)} {s s₁ : Logged σ} {r : OpenRange (Numbered H)}
    (h : c.ensureRange t.logged need s = (.ok r, c₁, s₁)) :
    Call.totalReported s₁.calls = Call.totalReported s.calls := by
  cases hr : c.range with
  | some r' =>
    rw [ensureRange_of_range need hr] at h
    cases h
    rfl
  | none =>
    rw [ensureRange_of_none hr] at h
    split at h
    · cases h
    · rename_i hopen
      cases h
      have hnoted : (c.noted t.logged need s).calls = s.calls := noteChange_calls _ _ _
      rw [Transport.logged_openPinned_reported hopen, hnoted]

/-- With flawless calls there is a range. -/
theorem ensureRange_not_error {need : Int} {c c₁ : Channel (Numbered H)} {s s₁ : Logged σ} {e : ReadError}
    (h : c.ensureRange t.logged need s = (.error e, c₁, s₁)) : ¬Call.Flawless s₁.calls := by
  cases hr : c.range with
  | some r =>
    rw [ensureRange_of_range need hr] at h
    cases h
  | none =>
    rw [ensureRange_of_none hr] at h
    split at h
    · rename_i hopen
      cases h
      exact Transport.logged_openPinned_not_error hopen
    · cases h

/-- A round of a filling has pulled what its read reported. -/
theorem round_reported {need : Int} {c c₁ : Channel (Numbered H)} {s s₁ s₂ : Logged σ} {r : OpenRange (Numbered H)}
    {want : Nat} {reply : Reply} {h : Numbered H} (hensure : c.ensureRange t.logged need s = (.ok r, c₁, s₁))
    (hread : t.logged.read want r.handle s₁ = (reply, h, s₂)) :
    Call.totalReported s₂.calls =
      Call.totalReported s.calls + (Call.read r.handle.number want reply).reported := by
  rw [Transport.logged_read_reported hread, ensureRange_reported hensure]

/-- A filling that ends has pulled the bytes that it counts. -/
theorem Fills.pulls {want n : Nat} {gap : Nat → Nat → ByteArray} {got : Filling} {c c' : Channel (Numbered H)}
    {s s' : Logged σ} {a : Outcome ReadError Filling} (h : Fills t.logged want gap n got c s a c' s') (hs : Stands c s)
    (ha : Aligned c) (hflawless : Call.Flawless s'.calls) (hends : a ≠ .stalled) :
    ∃ got', a = .done got' ∧
      Call.totalReported s'.calls = Call.totalReported s.calls + (got'.count - got.count) := by
  induction h with
  | stalled => exact absurd rfl hends
  | notOpened hensure => exact absurd hflawless (ensureRange_not_error hensure)
  | failed hensure hread => exact absurd hflawless (Transport.logged_read_not_failed hread)
  | @cutShort n got c s r c₁ s₁ bytes h s₂ hensure hread hstop _ =>
    obtain ⟨-, -, hs₁, ha₁, -⟩ := ensureRange_meets 0 0 hensure hs ha
    have hr := ensureRange_ok hensure
    obtain ⟨answer, -, hclosed⟩ := @Transport.logged_closeQuietly _ _ t c₁.object h s₂
    have hend := hs₁.at_end hr hread hclosed hflawless
    exact absurd ((ha₁ r hr).symm.trans hend) hstop
  | @continued n got c s r c₁ s₁ bytes h s₂ a c' s' hensure hread _ _ _ ih =>
    obtain ⟨got', rfl, hrest⟩ := ih (.of_none rfl) (.of_none rfl) hflawless hends
    have hround : Call.totalReported s₂.calls = Call.totalReported s.calls + 0 := round_reported hensure hread
    have hcount : (got.add gap want bytes 0).count = got.count := Int.add_zero _
    rw [Transport.logged_closeQuietly_reported, hround, hcount, Int.add_zero] at hrest
    exact ⟨got', rfl, hrest⟩
  | @ended n got c s r c₁ s₁ bytes h s₂ hensure hread _ _ =>
    have hround : Call.totalReported s₂.calls = Call.totalReported s.calls + 0 := round_reported hensure hread
    have hcount : (got.add gap want bytes 0).count = got.count := Int.add_zero _
    exact ⟨_, rfl, by rw [hround, hcount, Int.sub_self]⟩
  | @full n got c s r c₁ s₁ bytes excess h s₂ hensure hread _ =>
    have hround : Call.totalReported s₂.calls = Call.totalReported s.calls + (bytes.size + excess) :=
      round_reported hensure hread
    have hcalls := @afterRead_calls _ _ t c₁ r.stop (bytes.size + excess) s₂
    have hcount : (got.add gap want bytes (bytes.size + excess)).count = got.count + (bytes.size + excess) := rfl
    refine ⟨_, rfl, ?_⟩
    rw [hcalls, hround, hcount]
    omega
  | @more n got c s r c₁ s₁ bytes excess h s₂ a c' s' hensure hread _ _ ih =>
    obtain ⟨-, -, hs₁, ha₁, -⟩ := ensureRange_meets 0 0 hensure hs ha
    have hr := ensureRange_ok hensure
    have hcursor : r.cursor + (bytes.size + excess) = c₁.position + (bytes.size + excess) := by rw [ha₁ r hr]
    have hcalls := @afterRead_calls _ _ t c₁ r.stop (bytes.size + excess) s₂
    have hs₂ : Stands { c₁ with
        position := c₁.position + (bytes.size + excess)
        range := some (r.advance h (bytes.size + excess)) } s₂ := hs₁.read hr hread rfl rfl rfl
    obtain ⟨got', rfl, hrest⟩ := ih (hs₂.quiet rfl hcalls) (.of_range rfl hcursor) hflawless hends
    have hround : Call.totalReported s₂.calls = Call.totalReported s.calls + (bytes.size + excess) :=
      round_reported hensure hread
    have hcount : (got.add gap want bytes (bytes.size + excess)).count = got.count + (bytes.size + excess) := rfl
    rw [hcalls, hround, hcount] at hrest
    exact ⟨got', rfl, by omega⟩

/-! ## Deliveries -/

/-- With flawless calls a delivery comes to its end, and has pulled what it skipped and what it counts. -/
theorem Delivers.pulls (ht : t.Counts) {n want : Nat} {gap : Nat → Nat → ByteArray} {c c' : Channel (Numbered H)}
    {s s' : Logged σ} {a : Outcome ReadError Filling} (h : Delivers t.logged n want gap c s a c' s') (hs : Stands c s)
    (hflawless : Call.Flawless s'.calls) (hends : a ≠ .stalled) :
    ∃ got, a = .done got ∧ Call.totalReported s'.calls =
      Call.totalReported s.calls + (got.count + c.skipDistance.getD 0) := by
  have hfilled : ∀ {c₁ s₁ a c₂ s₂}, reposition t.logged n c s = (.done (), c₁, s₁) →
      Fills t.logged want gap n {} c₁ s₁ a c₂ s₂ → Call.Flawless s₂.calls → a ≠ .stalled →
      ∃ got, a = .done got ∧ Call.totalReported s₂.calls =
        Call.totalReported s.calls + (got.count + c.skipDistance.getD 0) := by
    intro c₁ s₁ a c₂ s₂ hreposition hfills hflawless hends
    obtain ⟨incidents, -, hs₁, hcomes⟩ := reposition_meets ht hreposition hs
    have ha₁ : Aligned c₁ := by
      cases hcomes with
      | dropped hr => exact .of_none hr
      | arrived ha => exact ha
    obtain ⟨_, _, ⟨made, hmade, -, -⟩, -, -⟩ := hfills.meets ht rfl hs₁ ha₁ (Int.le_refl _)
    have hskipped := (reposition_pulls ht hreposition hs (hflawless.of_prefix ⟨made, hmade.symm⟩) nofun).2
    obtain ⟨got, rfl, hpulled⟩ := hfills.pulls hs₁ ha₁ hflawless hends
    have hnothing : ({} : Filling).count = 0 := rfl
    exact ⟨got, rfl, by omega⟩
  cases h with
  | notSkipped hreposition => cases (reposition_pulls ht hreposition hs hflawless nofun).1
  | stalled _ => exact absurd rfl hends
  | failed hreposition hfills => exact hfilled hreposition hfills hflawless nofun
  | filled hreposition hfills _ => exact hfilled hreposition hfills hflawless hends

end Channel

end RangeRead
