import RangeRead.Proofs.Channel.Course
import RangeRead.Proofs.Channel.Draws

/-!
# What goes wrong in a log

A log tells where its ranges stand (`Call.standing`), and an open channel takes this down in the cursor of its range
(`stands_invariant`). So the log also tells what went wrong during a read (`Call.incidents`): a range could not be
opened or pinned, a read failed, or told the end of the range where it should not.

At most one of these ends a delivery, which raises the error that it stands for (`Incident.Raises`): a range that could
not be opened or a delivering read (`Fills.meets`), or a read that skips (`reposition_meets`). A range that ends while
it is skipped ends nothing; a new one is asked for at the position.
-/

namespace RangeRead

variable {σ H : Type} {t : Transport σ H} {o : ObjectHandle}

/-! ## Where ranges stand -/

namespace Call

/-- Where the range of a call stands and ends after it. -/
def moved (standing : Int × Int) : Call → Int × Int
  | opened _ start stop => (start, stop)
  | pinned _ .seek offset (.ok _) => (offset, standing.2)
  | pinned _ .limit offset (.ok _) => (standing.1, offset)
  | read _ _ (.delivered bytes excess) => (standing.1 + (bytes.size + excess), standing.2)
  | read _ _ (.endOfStream _) | read _ _ (.failed _) | pinned _ _ _ (.error _) | refused .. | closed .. => standing

/-- Where the range with this number stands and ends after the calls. -/
def standing (number : Nat) (calls : List Call) : Int × Int :=
  calls.foldl (fun standing call => if call.number? = some number then call.moved standing else standing) (0, 0)

theorem standing_snoc (number : Nat) (calls : List Call) (call : Call) :
    standing number (calls ++ [call]) =
      if call.number? = some number then call.moved (standing number calls) else standing number calls := by
  unfold standing
  rw [List.foldl_append]
  rfl

/-- A range that has been opened and pinned stands at its start. -/
theorem standing_opening (number : Nat) (calls : List Call) (start stop : Int) :
    standing number (calls ++ opening number start stop) = (start, stop) := by
  unfold standing opening
  rw [List.foldl_append]
  simp [number?, moved]

end Call

/-! ## Incidents -/

/-- What can go wrong during a read. -/
inductive Incident
  /-- A range could not be opened or pinned. -/
  | notOpened (cause : ReadError)
  /-- A read of a range failed. -/
  | notRead (error : ReadError)
  /-- A read that delivers told the end neither at the end of its range nor at that of the object. -/
  | endedEarly
  /-- A read that skips told the end. -/
  | endedInSkip
  deriving DecidableEq

namespace Call

/-- What went wrong with a call that came after others, in a read from the offset `target` on. -/
def incident? (target size : Int) (before : List Call) : Call → Option Incident
  | refused _ _ cause | pinned _ _ _ (.error cause) => some (.notOpened cause)
  | read _ _ (.failed error) => some (.notRead error)
  | read number _ (.endOfStream _) =>
    if (standing number before).1 < target then some .endedInSkip
    else if (standing number before).1 ≠ (standing number before).2 ∧ (standing number before).1 ≠ size then
      some .endedEarly
    else none
  | opened .. | pinned _ _ _ (.ok _) | read _ _ (.delivered ..) | closed .. => none

/-- What went wrong with calls that came after others, in order. -/
def incidents (target size : Int) : List Call → List Call → List Incident
  | _, [] => []
  | before, call :: calls =>
    (call.incident? target size before).toList ++ incidents target size (before ++ [call]) calls

theorem incidents_append (target size : Int) (before calls more : List Call) :
    incidents target size before (calls ++ more) =
      incidents target size before calls ++ incidents target size (before ++ calls) more := by
  induction calls generalizing before with
  | nil => rw [List.append_nil]; rfl
  | cons call calls ih =>
    show (call.incident? target size before).toList ++ incidents target size (before ++ [call]) (calls ++ more) = _
    rw [ih, ← List.append_assoc, List.append_assoc before]
    rfl

end Call

/-- From the state `s` to the state `s'` these windows were asked for, and these things went wrong. -/
def Logged.Meets (target size : Int) (s s' : Logged σ) (windows : List (Int × Int)) (incidents : List Incident) :
    Prop :=
  ∃ made, s'.calls = s.calls ++ made ∧ Call.windows made = windows ∧
    Call.incidents target size s.calls made = incidents

namespace Logged

variable {target size : Int} {s s₁ s' : Logged σ} {windows more : List (Int × Int)} {incidents others : List Incident}

theorem Meets.of_eq (h : s'.calls = s.calls) : s.Meets target size s' [] [] := ⟨[], by simp [h], rfl, rfl⟩

theorem Meets.call (call : Call) (h : s'.calls = s.calls ++ [call]) :
    s.Meets target size s' call.window?.toList (call.incident? target size s.calls).toList := by
  refine ⟨[call], h, ?_, List.append_nil _⟩
  cases hw : call.window? <;> simp [Call.windows, hw]

theorem Meets.trans (h : s.Meets target size s₁ windows incidents) (h' : s₁.Meets target size s' more others) :
    s.Meets target size s' (windows ++ more) (incidents ++ others) := by
  obtain ⟨made, hcalls, rfl, rfl⟩ := h
  obtain ⟨made', hcalls', rfl, rfl⟩ := h'
  refine ⟨made ++ made', ?_, Call.windows_append _ _, ?_⟩
  · rw [hcalls', hcalls, List.append_assoc]
  · rw [Call.incidents_append, ← hcalls]

/-- What comes after without an incident and asks for nothing makes no difference. -/
theorem Meets.quiet (h : s.Meets target size s₁ windows incidents) (h' : s₁.Meets target size s' [] []) :
    s.Meets target size s' windows incidents := by
  have hboth := h.trans h'
  rwa [List.append_nil, List.append_nil] at hboth

end Logged

/-- The errors that an incident raises in a read of the object. A range that ends while it is skipped raises none. -/
inductive Incident.Raises (o : ObjectHandle) : Incident → ReadError → Prop
  | notOpened {cause start stop} : Raises o (.notOpened cause) (.notOpened start stop o cause)
  | notPinned {cause start stop} : Raises o (.notOpened cause) (.notPinned start stop o cause)
  | notRead {error} : Raises o (.notRead error) error
  | rangeCutShort {offset stop} : Raises o .endedEarly (.rangeCutShort offset stop o)
  | objectCutShort {offset} : Raises o .endedEarly (.objectCutShort offset o)

namespace Transport

theorem logged_closeQuietly_meets {target size : Int} (o : ObjectHandle) (h : Numbered H) (s : Logged σ) :
    s.Meets target size (t.logged.closeQuietly o h s) [] [] := by
  obtain ⟨answer, -, hcalls⟩ := @logged_closeQuietly _ _ t o h s
  exact .call _ hcalls

/-- Reads go wrong as their replies tell. -/
theorem logged_read_meets {target size : Int} {want : Nat} {h h' : Numbered H} {s s' : Logged σ} {reply : Reply}
    (hread : t.logged.read want h s = (reply, h', s')) :
    s.Meets target size s' [] ((Call.read h.number want reply).incident? target size s.calls).toList :=
  .call _ (logged_read hread).2.2

/-- A range that is opened and pinned is asked for, and nothing goes wrong. -/
theorem logged_openPinned_meets {target size start stop : Int} {s s' : Logged σ} {h : Numbered H}
    (heq : t.logged.openPinned o start stop s = (.ok h, s')) : s.Meets target size s' [(start, stop)] [] :=
  ⟨_, logged_openPinned_ok heq, Call.windows_opening _ _ _, rfl⟩

/-- A range that cannot be opened and pinned is asked for, and that is what goes wrong. -/
theorem logged_openPinned_meets_error (target size : Int) {start stop : Int} {s s' : Logged σ} {e : ReadError}
    (heq : t.logged.openPinned o start stop s = (.error e, s')) :
    ∃ cause, Incident.Raises o (.notOpened cause) e ∧ s.Meets target size s' [(start, stop)] [.notOpened cause] := by
  cases Opens.of_eq heq with
  | @refused cause _ hopen => exact ⟨cause, .notOpened, .call _ (logged_openRange_error hopen).2⟩
  | @notSought _ _ cause _ _ hopen hseek =>
    have hopened : s.Meets target size _ [(start, stop)] [] := .call _ (logged_openRange_ok hopen).2.2
    have hsought := hopened.trans (.call _ (logged_pin hseek).2.2)
    exact ⟨cause, .notPinned, hsought.quiet (logged_closeQuietly_meets _ _ _)⟩
  | @notLimited _ _ _ _ _ cause _ _ hopen hseek hlimit =>
    have hopened : s.Meets target size _ [(start, stop)] [] := .call _ (logged_openRange_ok hopen).2.2
    have hlimited := (hopened.trans (.call _ (logged_pin hseek).2.2)).trans (.call _ (logged_pin hlimit).2.2)
    exact ⟨cause, .notPinned, hlimited.quiet (logged_closeQuietly_meets _ _ _)⟩

end Transport

namespace Channel

/-! ## The open range -/

/-- The range of a channel stands and ends where the log tells. -/
def Stands (c : Channel (Numbered H)) (s : Logged σ) : Prop :=
  ∀ r, c.range = some r → Call.standing r.handle.number s.calls = (r.cursor, r.stop)

theorem Stands.of_none {c : Channel (Numbered H)} {s : Logged σ} (hr : c.range = none) : Stands c s := fun r hsome => by
  rw [hr] at hsome
  cases hsome

/-- What makes no call leaves the range where it stands. -/
theorem Stands.quiet {c c' : Channel (Numbered H)} {s s' : Logged σ} (h : Stands c s) (hrange : c'.range = c.range)
    (hcalls : s'.calls = s.calls) : Stands c' s' := fun r hr => by
  rw [hcalls]
  exact h r (hrange ▸ hr)

/-- A range that has been opened stands at its start. -/
theorem stands_opened {start stop : Int} {s s' : Logged σ} {h : Numbered H} {c : Channel (Numbered H)}
    (heq : t.logged.openPinned o start stop s = (.ok h, s')) (hr : c.range = some ⟨h, start, stop⟩) : Stands c s' :=
  fun r hsome => by
    cases hr.symm.trans hsome
    rw [Transport.logged_openPinned_ok heq]
    exact Call.standing_opening _ _ _ _

/-- A read moves the range by what it reports. -/
theorem Stands.read {c c' : Channel (Numbered H)} {s s' : Logged σ} {r r' : OpenRange (Numbered H)} {want : Nat}
    {reply : Reply} {h : Numbered H} (hs : Stands c s) (hr : c.range = some r)
    (hread : t.logged.read want r.handle s = (reply, h, s')) (hr' : c'.range = some r') (hhandle : r'.handle = h)
    (hmoved : (Call.read r.handle.number want reply).moved (r.cursor, r.stop) = (r'.cursor, r'.stop)) :
    Stands c' s' := fun r'' hsome => by
  cases hr'.symm.trans hsome
  obtain ⟨hnumber, -, hcalls⟩ := Transport.logged_read hread
  rw [hcalls, hhandle, hnumber, Call.standing_snoc]
  refine (if_pos rfl).trans ?_
  rw [hs r hr]
  exact hmoved

/-- Whatever is done, the range of a channel stands where the log tells. -/
theorem stands_invariant (t : Transport σ H) : Invariant t.logged fun c s => Stands c s := by
  refine .of_acts (P := fun phase => Stands phase.channel phase.state) (fun {p q} hp hact => ?_) (fun _ hp _ => hp)
    (fun hp _ => hp)
  cases hact with
  | notes notice => exact hp.quiet rfl rfl
  | refused hr _ => exact .of_none hr
  | opens hr hopen => exact stands_opened hopen rfl
  | fails hr _ _ => exact .of_none rfl
  | ends hr _ hread => exact hp.read hr hread rfl rfl rfl
  | skips hr _ _ hread => exact hp.read hr hread rfl rfl rfl
  | delivers hr _ hread => exact hp.read hr hread rfl rfl rfl
  | drops _ => exact .of_none rfl
  | leaves _ => exact .of_none rfl

/-! ## Bringing the range to the position -/

/-- How a channel comes out of bringing its range to the position, and what went wrong. -/
inductive Comes (c : Channel H) : Outcome ReadError Unit → List Incident → Prop
  | stalled : Comes c .stalled []
  | failed {error} : Comes c (.failed error) [.notRead error]
  /-- The range has ended on the way, and a new one will be opened. -/
  | dropped (hr : c.range = none) : Comes c (.done ()) [.endedInSkip]
  | arrived (ha : Aligned c) : Comes c (.done ()) []

/-- The end is told to a read that skips where the range stands before the target. -/
theorem incident?_skipping {number want : Nat} {bytes : ByteArray} {target size : Int} {calls : List Call}
    (h : (Call.standing number calls).1 < target) :
    (Call.read number want (.endOfStream bytes)).incident? target size calls = some .endedInSkip := if_pos h

/-- A skip arrives at the position, or its range fails or ends on the way. -/
theorem Skips.meets (ht : t.Counts) {n : Nat} {size : Int} {c c' : Channel (Numbered H)} {s s' : Logged σ}
    {a : Outcome ReadError Unit} (h : Skips t.logged n c s a c' s') (hs : Stands c s) {r : OpenRange (Numbered H)}
    (hr : c.range = some r) (hlt : r.cursor < c.position) :
    ∃ incidents, s.Meets c.position size s' [] incidents ∧ Stands c' s' ∧ Comes c' a incidents := by
  induction h generalizing r with
  | stalled => exact ⟨[], .of_eq rfl, hs, .stalled⟩
  | noRange hnone =>
    rw [hnone] at hr
    cases hr
  | failed hr' hread =>
    exact ⟨_, (Transport.logged_read_meets hread).quiet (Transport.logged_closeQuietly_meets _ _ _), .of_none rfl,
      .failed⟩
  | @ended n c s r' bytes h s' hr' hread =>
    cases hr'.symm.trans hr
    have hmeets : s.Meets c.position size s' [] _ := Transport.logged_read_meets hread
    rw [incident?_skipping (by rw [hs r' hr]; exact hlt)] at hmeets
    have hnoted : s.Meets c.position size (t.logged.note (.endedInSkip c.position c.object) s') [] [.endedInSkip] :=
      hmeets.quiet (.of_eq rfl)
    exact ⟨_, hnoted.quiet (Transport.logged_closeQuietly_meets _ _ _), .of_none rfl, .dropped rfl⟩
  | @arrived n c s r' bytes excess h s' hr' hread hle =>
    cases hr'.symm.trans hr
    -- no more was asked for than what was left to skip
    obtain ⟨-, hwant⟩ := ht.logged hread
    have harrived : r'.cursor + (bytes.size + excess) = c.position := by omega
    exact ⟨_, Transport.logged_read_meets hread, hs.read hr hread rfl rfl rfl, .arrived (.of_range rfl harrived)⟩
  | @onward n c s r' bytes excess h s₁ a c' s' hr' hread hmore _ ih =>
    cases hr'.symm.trans hr
    obtain ⟨incidents, hmeets, hrest⟩ := ih (hs.read hr hread rfl rfl rfl) rfl hmore
    exact ⟨_, (Transport.logged_read_meets hread).trans hmeets, hrest⟩

/-- Bringing the range to the position asks for none, and only a skip can go wrong. -/
theorem reposition_meets (ht : t.Counts) {n : Nat} {c c₁ : Channel (Numbered H)} {s s₁ : Logged σ}
    {a : Outcome ReadError Unit} (h : reposition t.logged n c s = (a, c₁, s₁)) (hs : Stands c s) :
    ∃ incidents, s.Meets c.position c.object.size s₁ [] incidents ∧ Stands c₁ s₁ ∧ Comes c₁ a incidents := by
  cases hr : c.range with
  | none =>
    rw [reposition_of_none n hr] at h
    cases h
    exact ⟨[], .of_eq rfl, hs, .arrived (.of_none hr)⟩
  | some r =>
    rw [reposition_of_range n hr] at h
    split at h
    · rename_i hat
      cases h
      exact ⟨[], .of_eq rfl, hs, .arrived (.of_range hr hat.symm)⟩
    · split at h
      · rename_i hskip
        obtain ⟨-, hahead, -⟩ := canSkip_ahead hskip
        have hskips := skips_skip (t := t.logged) n c s
        rw [h] at hskips
        exact hskips.meets ht hs hr hahead
      · cases h
        have hnoted : s.Meets c.position c.object.size
            (noteChange t.logged c.object (c.sizing.observeSeek c.position r.cursor).1 s) [] [] :=
          .of_eq (noteChange_calls _ _ _)
        exact ⟨[], hnoted.quiet (Transport.logged_closeQuietly_meets _ _ _), .of_none rfl, .arrived (.of_none rfl)⟩

/-! ## Filling -/

/-- How a delivery comes out of what went wrong in it: one incident at most, which it raises. -/
inductive Settles {α : Type} (o : ObjectHandle) : Outcome ReadError α → List Incident → Prop
  | returns {a} (hreturns : ∀ e, a ≠ .failed e) : Settles o a []
  | raises {incident e} (hraises : Incident.Raises o incident e) : Settles o (.failed e) [incident]

section Fills

variable (target size : Int) {need : Int} {c c₁ : Channel (Numbered H)} {s s₁ : Logged σ}

/-- The range is there, or has been asked for at the position. -/
theorem ensureRange_meets {r : OpenRange (Numbered H)}
    (h : c.ensureRange t.logged need s = (.ok r, c₁, s₁)) (hs : Stands c s) (ha : Aligned c) :
    ∃ windows, s.Meets target size s₁ windows [] ∧ Stands c₁ s₁ ∧ Aligned c₁ ∧
      (c.range = none → windows.head? = some (c.position, r.stop)) := by
  cases hr : c.range with
  | some r' =>
    rw [ensureRange_of_range need hr] at h
    cases h
    exact ⟨[], .of_eq rfl, hs, ha, nofun⟩
  | none =>
    rw [ensureRange_of_none hr] at h
    split at h
    · cases h
    · rename_i handle s' hopen
      cases h
      have hnoted : s.Meets target size (c.noted t.logged need s) [] [] := .of_eq (noteChange_calls _ _ _)
      exact ⟨_, hnoted.trans (Transport.logged_openPinned_meets hopen), stands_opened hopen rfl, .of_range rfl rfl,
        fun _ => rfl⟩

/-- A range that was asked for at the position cannot be opened or pinned. -/
theorem ensureRange_meets_error {e : ReadError} (h : c.ensureRange t.logged need s = (.error e, c₁, s₁)) :
    ∃ stop cause, Incident.Raises c.object (.notOpened cause) e ∧
      s.Meets target size s₁ [(c.position, stop)] [.notOpened cause] := by
  cases hr : c.range with
  | some r' =>
    rw [ensureRange_of_range need hr] at h
    cases h
  | none =>
    rw [ensureRange_of_none hr] at h
    split at h
    · rename_i hopen
      cases h
      have hnoted : s.Meets target size (c.noted t.logged need s) [] [] := .of_eq (noteChange_calls _ _ _)
      obtain ⟨cause, hraises, hmeets⟩ := Transport.logged_openPinned_meets_error target size hopen
      exact ⟨_, cause, hraises, hnoted.trans hmeets⟩
    · cases h

/-- A round of a filling asks for a range if none is open, and goes wrong as the reply tells. -/
theorem round_meets {r : OpenRange (Numbered H)} {want : Nat} {reply : Reply} {h : Numbered H} {s₂ s₃ : Logged σ}
    (hensure : c.ensureRange t.logged need s = (.ok r, c₁, s₁))
    (hread : t.logged.read want r.handle s₁ = (reply, h, s₂)) (hquiet : s₂.Meets target size s₃ [] [])
    (hs : Stands c s) (ha : Aligned c) :
    ∃ windows, s.Meets target size s₃ windows
        ((Call.read r.handle.number want reply).incident? target size s₁.calls).toList ∧
      Stands c₁ s₁ ∧ Aligned c₁ ∧ (c.range = none → windows.head? = some (c.position, r.stop)) := by
  obtain ⟨windows, hmeets, hs₁, ha₁, hopened⟩ := ensureRange_meets target size hensure hs ha
  have hread' := (hmeets.trans (Transport.logged_read_meets hread)).quiet hquiet
  rw [List.append_nil] at hread'
  exact ⟨windows, hread', hs₁, ha₁, hopened⟩

/-- A round that is told the end goes wrong if neither the range nor the object ends at the position. -/
theorem round_meets_end {r : OpenRange (Numbered H)} {want : Nat} {bytes : ByteArray} {h : Numbered H}
    {s₂ s₃ : Logged σ} (hensure : c.ensureRange t.logged need s = (.ok r, c₁, s₁))
    (hread : t.logged.read want r.handle s₁ = (.endOfStream bytes, h, s₂)) (hquiet : s₂.Meets target size s₃ [] [])
    (hs : Stands c s) (ha : Aligned c) (htarget : target ≤ c.position) :
    ∃ windows, s.Meets target size s₃ windows
        (if c₁.position ≠ r.stop ∧ c₁.position ≠ size then [.endedEarly] else []) ∧
      (c.range = none → windows.head? = some (c.position, r.stop)) := by
  obtain ⟨windows, hmeets, hs₁, ha₁, hopened⟩ := round_meets target size hensure hread hquiet hs ha
  have hr := ensureRange_ok hensure
  have hposition := (ensureRange_sameAs hensure).2
  refine ⟨windows, ?_, hopened⟩
  simp only [Call.incident?, hs₁ r hr, ha₁ r hr, hposition, if_neg (Int.not_lt.mpr htarget)] at hmeets
  rw [hposition]
  split
  · rename_i hearly
    rwa [if_pos hearly] at hmeets
  · rename_i hearly
    rwa [if_neg hearly] at hmeets

/-- A filling raises what goes wrong, which is one incident at most. If no range is open it asks for one at the
position. -/
theorem Fills.meets {target : Int} (ht : t.Counts) {want n : Nat} {gap : Nat → Nat → ByteArray} {got : Filling}
    {c c' : Channel (Numbered H)} {s s' : Logged σ} {a : Outcome ReadError Filling}
    (h : Fills t.logged want gap n got c s a c' s') (hobject : c.object = o) (hs : Stands c s) (ha : Aligned c)
    (htarget : target ≤ c.position) :
    ∃ windows incidents, s.Meets target o.size s' windows incidents ∧ Settles o a incidents ∧
      (c.range = none → a ≠ .stalled → ∃ stop, windows.head? = some (c.position, stop)) := by
  induction h with
  | stalled => exact ⟨[], [], .of_eq rfl, .returns nofun, fun _ hends => absurd rfl hends⟩
  | notOpened hensure =>
    obtain ⟨stop, cause, hraises, hmeets⟩ := ensureRange_meets_error target o.size hensure
    rw [hobject] at hraises
    exact ⟨_, _, hmeets, .raises hraises, fun _ _ => ⟨stop, rfl⟩⟩
  | @failed n got c s r c₁ s₁ e h s₂ hensure hread =>
    obtain ⟨windows, hmeets, -, -, hopened⟩ := round_meets target o.size hensure hread
      (Transport.logged_closeQuietly_meets c₁.object h s₂) hs ha
    exact ⟨windows, _, hmeets, .raises .notRead, fun hr _ => ⟨r.stop, hopened hr⟩⟩
  | @cutShort n got c s r c₁ s₁ bytes h s₂ hensure hread hstop hsize =>
    have hobject₁ := (ensureRange_sameAs hensure).1.object.trans hobject
    obtain ⟨windows, hmeets, hopened⟩ := round_meets_end target o.size hensure hread
      (Transport.logged_closeQuietly_meets c₁.object h s₂) hs ha htarget
    rw [if_pos ⟨hstop, hobject₁ ▸ hsize⟩] at hmeets
    refine ⟨windows, _, hmeets, .raises ?_, fun hr _ => ⟨r.stop, hopened hr⟩⟩
    unfold Channel.cutShort
    rw [hobject₁]
    split
    · exact .objectCutShort
    · exact .rangeCutShort
  | @continued n got c s r c₁ s₁ bytes h s₂ a c' s' hensure hread hstop _ _ ih =>
    obtain ⟨hsame, hposition⟩ := ensureRange_sameAs hensure
    obtain ⟨windows, hmeets, hopened⟩ := round_meets_end target o.size hensure hread
      (Transport.logged_closeQuietly_meets c₁.object h s₂) hs ha htarget
    rw [if_neg fun hearly => hearly.1 hstop] at hmeets
    rw [← hposition] at htarget
    obtain ⟨more, incidents, hrest, hsettles, -⟩ :=
      ih (hsame.object.trans hobject) (.of_none rfl) (.of_none rfl) htarget
    exact ⟨windows ++ more, incidents, hmeets.trans hrest, hsettles,
      fun hr _ => ⟨r.stop, by rw [List.head?_append, hopened hr]; rfl⟩⟩
  | @ended n got c s r c₁ s₁ bytes h s₂ hensure hread hsize _ =>
    have hobject₁ := (ensureRange_sameAs hensure).1.object.trans hobject
    obtain ⟨windows, hmeets, hopened⟩ := round_meets_end target o.size hensure hread (.of_eq rfl) hs ha htarget
    rw [if_neg fun hearly => hearly.2 (hobject₁ ▸ hsize)] at hmeets
    exact ⟨windows, _, hmeets, .returns nofun, fun hr _ => ⟨r.stop, hopened hr⟩⟩
  | @full n got c s r c₁ s₁ bytes excess h s₂ hensure hread _ =>
    obtain ⟨windows, hmeets, -, -, hopened⟩ := round_meets target o.size hensure hread
      (.of_eq (afterRead_calls c₁ r.stop (bytes.size + excess) s₂)) hs ha
    exact ⟨windows, _, hmeets, .returns nofun, fun hr _ => ⟨r.stop, hopened hr⟩⟩
  | @more n got c s r c₁ s₁ bytes excess h s₂ a c' s' hensure hread _ _ ih =>
    obtain ⟨hsame, hposition⟩ := ensureRange_sameAs hensure
    have hcalls := @afterRead_calls _ _ t c₁ r.stop (bytes.size + excess) s₂
    obtain ⟨windows, hmeets, hs₁, ha₁, hopened⟩ := round_meets target o.size hensure hread (.of_eq hcalls) hs ha
    have hr := ensureRange_ok hensure
    have hcursor := ha₁ r hr
    obtain ⟨hcount, -⟩ := ht.logged hread
    have hs₂ : Stands { c₁ with
        position := c₁.position + (bytes.size + excess)
        range := some (r.advance h (bytes.size + excess)) } s₂ := hs₁.read hr hread rfl rfl rfl
    have hcursor₂ : r.cursor + (bytes.size + excess) = c₁.position + (bytes.size + excess) := by rw [hcursor]
    -- no count is below zero, so that what is read next is still delivered
    have htarget₂ : target ≤ c₁.position + (bytes.size + excess) := by omega
    obtain ⟨more, incidents, hrest, hsettles, -⟩ :=
      ih (hsame.object.trans hobject) (hs₂.quiet rfl hcalls) (.of_range rfl hcursor₂) htarget₂
    exact ⟨windows ++ more, incidents, hmeets.trans hrest, hsettles,
      fun hr _ => ⟨r.stop, by rw [List.head?_append, hopened hr]; rfl⟩⟩

end Fills

end Channel

end RangeRead
