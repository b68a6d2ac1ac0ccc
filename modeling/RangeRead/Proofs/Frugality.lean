import RangeRead.Proofs.Reading
import RangeRead.Proofs.Transport.Tally

/-!
# What a read costs

A read asks for one range at most, which has all the bytes that it wants, so that no other range has to follow
(`Suffices`). If every reply brings at least one byte, the loops of the read come to their ends after about as many
replies as bytes are skipped and wanted (`Frugal`). So it is in every state of a channel, over every transport that
counts what it was asked for (`reads_frugally`).

What a loop may still cost is known before every round: the ranges that it may ask for (`openings`), and the rounds that
bring no byte (`spare`). No round brings more than it takes from them (`Skips.makes`, `Fills.spends`).
-/

namespace RangeRead.Channel

variable {σ H ρ : Type} {t : Transport σ H} {recorder : Option (Recorder ρ)} {memory : Nat}

/-! ## Windows that suffice -/

/-- A window that begins between two offsets and reaches the second, or the end of an object of this size. -/
structure Suffices (size position target : Int) (window : Int × Int) : Prop where
  le_start : position ≤ window.1
  start_lt : window.1 < target
  le_stop : min size target ≤ window.2

theorem Suffices.mono {size position position' target : Int} {window : Int × Int}
    (h : Suffices size position' target window) (hle : position ≤ position') :
    Suffices size position target window where
  le_start := Int.le_trans hle h.le_start
  start_lt := h.start_lt
  le_stop := h.le_stop

/-! ## Budgets -/

/-- Rounds that bring no byte: one, where the open range ends before the target although the object goes on, or reaches
beyond the object. -/
def spare (target : Int) (c : Channel H) : Nat :=
  match c.range with
  | none => 0
  | some r => if min (c.object.size : Int) target ≤ r.stop ∧ r.stop ≤ c.object.size then 0 else 1

/-- How many ranges may be asked for until the target is reached. -/
def openings (target : Int) (c : Channel H) : Nat :=
  match c.range with
  | none => 1
  | some _ => c.spare target

theorem spare_of_none {target : Int} {c : Channel H} (h : c.range = none) : c.spare target = 0 := by
  unfold spare
  rw [h]

theorem spare_of_range {target : Int} {c : Channel H} {r : OpenRange H} (h : c.range = some r) :
    c.spare target = if min (c.object.size : Int) target ≤ r.stop ∧ r.stop ≤ c.object.size then 0 else 1 := by
  unfold spare
  rw [h]

theorem openings_of_none {target : Int} {c : Channel H} (h : c.range = none) : c.openings target = 1 := by
  unfold openings
  rw [h]

theorem openings_of_range {target : Int} {c : Channel H} {r : OpenRange H} (h : c.range = some r) :
    c.openings target = c.spare target := by
  unfold openings
  rw [h]

theorem spare_le (target : Int) (c : Channel H) : c.spare target ≤ 1 := by
  cases h : c.range with
  | none =>
    rw [spare_of_none h]
    omega
  | some r =>
    rw [spare_of_range h]
    split <;> omega

theorem openings_le (target : Int) (c : Channel H) : c.openings target ≤ 1 := by
  cases h : c.range with
  | none => exact Nat.le_of_eq (openings_of_none h)
  | some r =>
    rw [openings_of_range h]
    exact spare_le target c

/-- Reading on makes no difference to where the range ends. -/
theorem spare_advance (target : Int) {c : Channel H} {r : OpenRange H} (hr : c.range = some r) (position : Int) (h : H)
    (n : Int) : ({ c with position := position, range := some (r.advance h n) } : Channel H).spare target =
      c.spare target := by
  rw [spare_of_range hr]
  rfl

/-- A range that has been read up to its end before the target is one that falls short. -/
theorem spare_of_end {target : Int} {c : Channel H} {r : OpenRange H} (hr : c.range = some r) (hstop : r.stop < target)
    (hsize : r.stop ≠ c.object.size) : c.spare target = 1 := by
  rw [spare_of_range hr, if_neg (by omega)]

/-! ## Opening -/

/-- The open range stays, or else one is asked for that suffices. -/
theorem ensureRange_makes {need : Int} {c c₁ : Channel (Numbered H)} {s s₁ : Logged σ}
    {a : Except ReadError (OpenRange (Numbered H))} (h : c.ensureRange t.logged need s = (a, c₁, s₁))
    (hneed : 0 < need) :
    ∃ windows, s.Makes s₁ windows [] ∧ windows.length ≤ c.openings (c.position + need) ∧
      (∀ window ∈ windows, Suffices c.object.size c.position (c.position + need) window) ∧
      ∀ r, a = .ok r →
        windows.length + c₁.openings (c.position + need) = c.openings (c.position + need) ∧
        c₁.spare (c.position + need) = c.spare (c.position + need) := by
  cases hr : c.range with
  | some r =>
    rw [ensureRange_of_range need hr] at h
    cases h
    refine ⟨[], .of_eq rfl, Nat.zero_le _, fun _ hmem => by simp at hmem, fun r' ha => ?_⟩
    cases ha
    exact ⟨Nat.zero_add _, rfl⟩
  | none =>
    obtain ⟨hreaches, hsize⟩ := nextStop_reaches c need
    have hsuffices : ∀ window ∈ [(c.position, c.nextStop need)],
        Suffices c.object.size c.position (c.position + need) window := by
      intro window hmem
      rw [List.mem_singleton] at hmem
      subst hmem
      exact ⟨Int.le_refl _, by omega, hreaches⟩
    rw [openings_of_none hr, spare_of_none hr]
    rw [ensureRange_of_none hr] at h
    rcases hopen : t.logged.openPinned c.object c.position (c.nextStop need) (c.noted t.logged need s) with ⟨a', s'⟩
    have hmakes : s.Makes s' ([] ++ [(c.position, c.nextStop need)]) ([] ++ []) :=
      (logged_noteChange_makes _ _ _).trans (Transport.logged_openPinned_makes hopen)
    rw [hopen] at h
    cases a' with
    | error e =>
      cases h
      exact ⟨_, hmakes, Nat.le_refl 1, hsuffices, fun r ha => by cases ha⟩
    | ok handle =>
      cases h
      refine ⟨_, hmakes, Nat.le_refl 1, hsuffices, fun r ha => ?_⟩
      cases ha
      have hspare : spare (c.position + need) { c with
          sizing := c.nextSizing need
          range := some ⟨handle, c.position, c.nextStop need⟩ } = 0 := by
        rw [spare_of_range rfl]
        exact if_pos ⟨hreaches, hsize⟩
      refine ⟨?_, hspare⟩
      rw [openings_of_range rfl, hspare]
      rfl

/-! ## Rounds -/

/-- A loop that got these replies kept to so many rounds, if none of them was for nothing, and stalled only for want of
patience. -/
def Rounds (bound : Int) (n : Nat) (stalled : Prop) (replies : List Reply) : Prop :=
  (∀ reply ∈ replies, ¬reply.IsNothing) → replies.length ≤ bound ∧ (stalled → n < bound)

theorem Rounds.none {bound : Int} {n : Nat} {stalled : Prop} (hbound : 0 ≤ bound) (hstalled : stalled → n < bound) :
    Rounds bound n stalled [] := fun _ => ⟨hbound, hstalled⟩

/-- A last round. -/
theorem Rounds.last {bound : Int} {n : Nat} {stalled : Prop} (reply : Reply) (hbound : 0 < bound) (hends : ¬stalled) :
    Rounds bound n stalled [reply] := by
  intro _
  refine ⟨?_, fun hstalled => absurd hstalled hends⟩
  simp only [List.length_singleton]
  omega

/-- A round before others, which leaves fewer of them unless it was for nothing. -/
theorem Rounds.cons {bound bound' : Int} {n : Nat} {stalled : Prop} {reply : Reply} {replies : List Reply}
    (h : Rounds bound' n stalled replies) (hless : ¬reply.IsNothing → bound' < bound) :
    Rounds bound (n + 1) stalled (reply :: replies) := by
  intro hbrings
  rw [List.forall_mem_cons] at hbrings
  obtain ⟨hlength, hstalled⟩ := h hbrings.2
  have hlt := hless hbrings.1
  refine ⟨?_, fun ha => ?_⟩
  · rw [List.length_cons]
    omega
  · have hn := hstalled ha
    omega

/-! ## Loops -/

/-- A skip asks for no range. It takes as many rounds as there are bytes to skip, at most. -/
theorem Skips.makes (ht : t.Counts) {n : Nat} {c c' : Channel (Numbered H)} {s s' : Logged σ}
    {a : Outcome ReadError Unit} (h : Skips t.logged n c s a c' s') {r : OpenRange (Numbered H)} (hr : c.range = some r)
    (hlt : r.cursor < c.position) :
    ∃ replies, s.Makes s' [] replies ∧ Rounds (c.position - r.cursor) n (a = .stalled) replies := by
  have hleft : 0 < c.position - r.cursor := by omega
  induction h generalizing r with
  | stalled => exact ⟨[], .of_eq rfl, .none (Int.le_of_lt hleft) fun _ => hleft⟩
  | noRange hnone =>
    rw [hnone] at hr
    cases hr
  | failed hr' hread =>
    rw [hr'] at hr
    cases hr
    exact ⟨_, (Transport.logged_read_makes hread).quiet (Transport.logged_closeQuietly_makes _ _ _),
      .last _ hleft nofun⟩
  | @ended n c s r' bytes h s' hr' hread =>
    rw [hr'] at hr
    cases hr
    have hnoted : s.Makes (t.logged.note (.endedInSkip c.position c.object) s') [] [.endOfStream bytes] :=
      (Transport.logged_read_makes hread).quiet (.of_eq rfl)
    exact ⟨_, hnoted.quiet (Transport.logged_closeQuietly_makes _ _ _), .last _ hleft nofun⟩
  | arrived hr' hread _ =>
    rw [hr'] at hr
    cases hr
    exact ⟨_, Transport.logged_read_makes hread, .last _ hleft nofun⟩
  | @onward n c s r' bytes excess h s₁ a c' s' hr' hread honward _ ih =>
    rw [hr'] at hr
    cases hr
    obtain ⟨replies, hmakes, hrounds⟩ := ih rfl honward (Int.sub_pos_of_lt honward)
    refine ⟨_, (Transport.logged_read_makes hread).trans hmakes, hrounds.cons fun hsome => ?_⟩
    have hcount : bytes.size + excess ≠ 0 := hsome
    have h0 := (ht.logged hread).1
    show c.position - (r'.cursor + (bytes.size + excess)) < c.position - r'.cursor
    omega

/-- What is spent on the way from `s` to `s'` for `need` bytes at the position: no more ranges than there are openings,
each of which suffices, and no more rounds than bytes are needed and rounds are spare. -/
structure Spends (c : Channel (Numbered H)) (need : Int) (n : Nat) (stalled : Prop) (s s' : Logged σ)
    (windows : List (Int × Int)) (replies : List Reply) : Prop where
  makes : s.Makes s' windows replies
  openings : windows.length ≤ c.openings (c.position + need)
  enough : ∀ window ∈ windows, Suffices c.object.size c.position (c.position + need) window
  rounds : Rounds (need + c.spare (c.position + need)) n stalled replies

section Round

variable {c c₁ : Channel (Numbered H)} {need : Int} {s s₁ s₂ s₃ s' : Logged σ} {r : OpenRange (Numbered H)} {want : Nat}
  {reply : Reply} {h : Numbered H} {n : Nat} {stalled : Prop}
  (hneed : 0 < need) (hensure : c.ensureRange t.logged need s = (.ok r, c₁, s₁))
  (hread : t.logged.read want r.handle s₁ = (reply, h, s₂)) (hquiet : s₂.Makes s₃ [] [])
include hneed hensure hread hquiet

/-- The last round. -/
theorem Spends.last (hends : ¬stalled) :
    ∃ windows replies, Spends c need n stalled s s₃ windows replies := by
  obtain ⟨windows, hmakes, hopenings, hsuffices, -⟩ := ensureRange_makes hensure hneed
  refine ⟨_, _, (hmakes.trans (Transport.logged_read_makes hread)).quiet hquiet, ?_, ?_, .last _ (by omega) hends⟩
  · rw [List.append_nil]
    exact hopenings
  · rw [List.append_nil]
    exact hsuffices

/-- A round before others, for which less is needed or spare unless the round was for nothing. -/
theorem Spends.round {c₂ : Channel (Numbered H)} {need₂ : Int} {windows : List (Int × Int)} {replies : List Reply}
    (hrest : Spends c₂ need₂ n stalled s₃ s' windows replies) (hobject : c₂.object = c.object)
    (htarget : c₂.position + need₂ = c.position + need) (hposition : c.position ≤ c₂.position)
    (hopenings : c₂.openings (c.position + need) ≤ c₁.openings (c.position + need))
    (hless : ¬reply.IsNothing →
      need₂ + c₂.spare (c.position + need) < need + c₁.spare (c.position + need)) :
    ∃ windows replies, Spends c need (n + 1) stalled s s' windows replies := by
  obtain ⟨windows', hmakes, -, hsuffices, hok⟩ := ensureRange_makes hensure hneed
  obtain ⟨hbudget, hspare⟩ := hok r rfl
  obtain ⟨hmakes₂, hopenings₂, hsuffices₂, hrounds₂⟩ := hrest
  rw [htarget] at hopenings₂ hsuffices₂ hrounds₂
  rw [hspare] at hless
  refine ⟨_, _, ((hmakes.trans (Transport.logged_read_makes hread)).quiet hquiet).trans hmakes₂, ?_, ?_,
    hrounds₂.cons hless⟩
  · rw [List.append_nil, List.length_append]
    omega
  · rw [List.append_nil, List.forall_mem_append]
    refine ⟨hsuffices, fun window hmem => ?_⟩
    have hwindow := hsuffices₂ window hmem
    rw [hobject] at hwindow
    exact hwindow.mono hposition

end Round

/-- Filling a buffer spends no more than there is. -/
theorem Fills.spends (ht : t.Counts) {want n : Nat} {gap : Nat → Nat → ByteArray} {got : Filling}
    {c c' : Channel (Numbered H)} {s s' : Logged σ} {a : Outcome ReadError Filling}
    (h : Fills t.logged want gap n got c s a c' s') (hlt : got.count < want) :
    ∃ windows replies, Spends c (want - got.count) n (a = .stalled) s s' windows replies := by
  have hneed : 0 < want - got.count := by omega
  induction h with
  | stalled =>
    exact ⟨[], [], .of_eq rfl, Nat.zero_le _, fun _ hmem => by simp at hmem, .none (by omega) fun _ => by omega⟩
  | notOpened hensure =>
    obtain ⟨windows, hmakes, hopenings, hsuffices, -⟩ := ensureRange_makes hensure hneed
    exact ⟨windows, [], hmakes, hopenings, hsuffices, .none (by omega) nofun⟩
  | failed hensure hread =>
    exact Spends.last hneed hensure hread (Transport.logged_closeQuietly_makes _ _ _) nofun
  | cutShort hensure hread _ _ =>
    exact Spends.last hneed hensure hread (Transport.logged_closeQuietly_makes _ _ _) nofun
  | @continued n got c s r c₁ s₁ bytes h s₂ a c' s' hensure hread hstop hsize rest ih =>
    have hcount : (got.add gap want bytes 0).count = got.count := Int.add_zero _
    obtain ⟨hsame, hposition⟩ := ensureRange_sameAs hensure
    have hr := ensureRange_ok hensure
    obtain ⟨windows, replies, hrest⟩ := ih (by omega) (by omega)
    rw [hcount] at hrest
    -- only a range that was open before can have been too short
    have hspare : c₁.spare (c.position + (want - got.count)) = 1 :=
      spare_of_end hr (by omega) hsize
    refine Spends.round hneed hensure hread (Transport.logged_closeQuietly_makes _ _ _) hrest hsame.object
      (by rw [← hposition]) (Int.le_of_eq hposition.symm) ?_ fun _ => ?_
    · rw [openings_of_range hr, hspare]
      exact openings_le _ _
    · rw [spare_of_none rfl, hspare]
      omega
  | ended hensure hread _ _ => exact Spends.last hneed hensure hread (.of_eq rfl) nofun
  | full hensure hread _ => exact Spends.last hneed hensure hread (logged_afterRead_makes _ _ _ _) nofun
  | @more n got c s r c₁ s₁ bytes excess h s₂ a c' s' hensure hread hmore rest ih =>
    have hcount : (got.add gap want bytes (bytes.size + excess)).count = got.count + (bytes.size + excess) := rfl
    obtain ⟨hsame, hposition⟩ := ensureRange_sameAs hensure
    have hr := ensureRange_ok hensure
    obtain ⟨windows, replies, hrest⟩ := ih hmore (by omega)
    obtain ⟨h0, -⟩ := ht.logged hread
    have hspare := spare_advance (c.position + (want - got.count)) hr (c₁.position + (bytes.size + excess)) h
      (bytes.size + excess)
    refine Spends.round hneed hensure hread (logged_afterRead_makes _ _ _ _) hrest hsame.object ?_ ?_ ?_ fun hsome => ?_
    · dsimp only
      omega
    · dsimp only
      omega
    · rw [openings_of_range rfl, openings_of_range hr]
      exact Nat.le_of_eq hspare
    · have hbytes : bytes.size + excess ≠ 0 := hsome
      rw [hspare]
      omega

/-! ## Reads -/

/-- How many bytes a read skips first, unless the range ends on the way. -/
def skipLength (c : Channel H) : Nat :=
  match c.range with
  | none => 0
  | some r => if c.sizing.canSkip c.position r.cursor r.stop then (c.position - r.cursor).toNat else 0

theorem skipLength_of_wholeObject {c : Channel H} (h : c.sizing = .wholeObject) : c.skipLength = 0 := by
  unfold skipLength
  rw [h]
  cases c.range <;> rfl

/-- Bringing the range to the position asks for none. -/
theorem reposition_makes (ht : t.Counts) {n : Nat} {c c₁ : Channel (Numbered H)} {s s₁ : Logged σ}
    {a : Outcome ReadError Unit} (h : reposition t.logged n c s = (a, c₁, s₁)) :
    ∃ replies, s.Makes s₁ [] replies ∧ Rounds c.skipLength n (a = .stalled) replies := by
  have hnone : Rounds c.skipLength n ((.done () : Outcome ReadError Unit) = .stalled) [] :=
    .none (Int.natCast_nonneg _) nofun
  cases hr : c.range with
  | none =>
    rw [reposition_of_none n hr] at h
    cases h
    exact ⟨[], .of_eq rfl, hnone⟩
  | some r =>
    rw [reposition_of_range n hr] at h
    split at h
    · cases h
      exact ⟨[], .of_eq rfl, hnone⟩
    · split at h
      · rename_i hskip
        obtain ⟨-, hahead, -⟩ := canSkip_ahead hskip
        have hlength : (c.skipLength : Int) = c.position - r.cursor := by
          unfold skipLength
          rw [hr]
          dsimp only
          rw [if_pos hskip]
          omega
        have hskips := skips_skip (t := t.logged) n c s
        rw [h] at hskips
        rw [hlength]
        exact hskips.makes ht hr hahead
      · cases h
        exact ⟨[], (logged_noteChange_makes _ _ _).quiet (Transport.logged_closeQuietly_makes _ _ _), hnone⟩

/-- What a read of `want` bytes costs, which asked for the windows and got the replies. -/
structure Frugal (c : Channel H) (n want : Nat) (stalled : Prop) (windows : List (Int × Int)) (replies : List Reply) :
    Prop where
  /-- One range at most is asked for, whether or not it can be opened. -/
  once : windows.length ≤ 1
  enough : ∀ window ∈ windows, Suffices c.object.size c.position (c.position + want) window
  rounds : (∀ reply ∈ replies, ¬reply.IsNothing) → replies.length < c.skipLength + want + 2
  /-- With patience for so many rounds the read comes to its end. -/
  ends : (∀ reply ∈ replies, ¬reply.IsNothing) → c.skipLength + want + 2 ≤ n → ¬stalled
  simple : c.sizing = .wholeObject → c.skipLength = 0

theorem Frugal.nothing (c : Channel H) (n want : Nat) {stalled : Prop} (hends : ¬stalled) :
    Frugal c n want stalled [] [] where
  once := Nat.zero_le _
  enough window hmem := by simp at hmem
  rounds _ := by simp
  ends _ _ := hends
  simple := skipLength_of_wholeObject

/-- What stalls less often ends as often. -/
theorem Frugal.of_imp {c : Channel H} {n want : Nat} {stalled stalled' : Prop} {windows : List (Int × Int)}
    {replies : List Reply} (h : Frugal c n want stalled windows replies) (himp : stalled' → stalled) :
    Frugal c n want stalled' windows replies where
  once := h.once
  enough := h.enough
  rounds := h.rounds
  ends hbrings hn hstalls := h.ends hbrings hn (himp hstalls)
  simple := h.simple

/-- A read that ends before it fills its buffer has only skipped. -/
theorem reposition_frugal (ht : t.Counts) {n : Nat} (want : Nat) {c c₁ : Channel (Numbered H)} {s s₁ : Logged σ}
    {a : Outcome ReadError Unit} (h : reposition t.logged n c s = (a, c₁, s₁)) {stalled : Prop}
    (hstalled : stalled → a = .stalled) :
    ∃ windows replies, s.Makes s₁ windows replies ∧ Frugal c n want stalled windows replies := by
  obtain ⟨replies, hmakes, hrounds⟩ := reposition_makes ht h
  refine ⟨[], replies, hmakes, Nat.zero_le _, fun _ hmem => by simp at hmem, fun hbrings => ?_,
    fun hbrings hn hstalls => ?_, skipLength_of_wholeObject⟩
  · have hlength := (hrounds hbrings).1
    omega
  · have hlt := (hrounds hbrings).2 (hstalled hstalls)
    omega

/-- Skipping and then filling the buffer is frugal. -/
theorem Fills.frugal (ht : t.Counts) {n want : Nat} {gap : Nat → Nat → ByteArray} {c c₁ c' : Channel (Numbered H)}
    {s s₁ s' : Logged σ} {a : Outcome ReadError Filling} (h : Fills t.logged want gap n {} c₁ s₁ a c' s')
    (hreposition : reposition t.logged n c s = (.done (), c₁, s₁)) (hwant : 0 < want) :
    ∃ windows replies, s.Makes s' windows replies ∧ Frugal c n want (a = .stalled) windows replies := by
  obtain ⟨hsame, hposition⟩ := reposition_sameAs (t := t.logged) n c s
  rw [hreposition] at hsame hposition
  obtain ⟨skipped, hskipped, hskips⟩ := reposition_makes ht hreposition
  have hnothing : ({} : Filling).count < (want : Int) := Int.natCast_pos.mpr hwant
  obtain ⟨windows, replies, hmakes, hopenings, henough, hrounds⟩ := h.spends ht hnothing
  have hneed : (want : Int) - ({} : Filling).count = want := Int.sub_zero _
  rw [hneed] at hopenings henough hrounds
  have hspare := spare_le (c₁.position + want) c₁
  refine ⟨windows, skipped ++ replies, hskipped.trans hmakes, Nat.le_trans hopenings (openings_le _ _),
    fun window hmem => ?_, fun hbrings => ?_, fun hbrings hn hstalls => ?_, skipLength_of_wholeObject⟩
  · have hwindow := henough window hmem
    rwa [hsame.object, hposition] at hwindow
  · rw [List.forall_mem_append] at hbrings
    have hlength := (hskips hbrings.1).1
    have hlength' := (hrounds hbrings.2).1
    rw [List.length_append]
    omega
  · rw [List.forall_mem_append] at hbrings
    have hlt := (hrounds hbrings.2).2 hstalls
    omega

theorem Delivers.frugal (ht : t.Counts) {n want : Nat} {gap : Nat → Nat → ByteArray} {c c' : Channel (Numbered H)}
    {s s' : Logged σ} {a : Outcome ReadError Filling} (h : Delivers t.logged n want gap c s a c' s')
    (hwant : 0 < want) :
    ∃ windows replies, s.Makes s' windows replies ∧ Frugal c n want (a = .stalled) windows replies := by
  cases h with
  | notSkipped hreposition => exact reposition_frugal ht want hreposition nofun
  | stalled hreposition => exact reposition_frugal ht want hreposition fun _ => rfl
  | failed hreposition hfills => exact hfills.frugal ht hreposition hwant
  | filled hreposition hfills _ => exact hfills.frugal ht hreposition hwant

/-- **Reads are frugal**, in every state of a channel and over every transport that counts what it was asked for. -/
theorem reads_frugally (ht : t.Counts) {operation : Operation} (hread : operation.isRead = true) (n : Nat)
    (c : Channel (Numbered H)) (w : World (Logged σ) ρ) :
    ∃ windows replies,
      w.transport.Makes (c.perform ⟨t.logged, recorder, memory⟩ n operation w).2.2.transport windows replies ∧
      Frugal c n (c.wants operation) ((c.perform ⟨t.logged, recorder, memory⟩ n operation w).1 = .stalled)
        windows replies := by
  have hreads := @perform_readsTo _ _ _ ⟨t.logged, recorder, memory⟩ n operation hread c w
  generalize c.perform ⟨t.logged, recorder, memory⟩ n operation w = after at hreads ⊢
  obtain ⟨a, c', w'⟩ := after
  cases hreads with
  | nothing hends => exact ⟨[], [], .of_eq rfl, .nothing _ _ _ hends⟩
  | fails hwant hdeliver =>
    obtain ⟨windows, replies, hmakes, hfrugal⟩ := (Delivers.of_eq hdeliver).frugal ht hwant
    exact ⟨windows, replies, hmakes, hfrugal.of_imp nofun⟩
  | stalls hwant hdeliver =>
    obtain ⟨windows, replies, hmakes, hfrugal⟩ := (Delivers.of_eq hdeliver).frugal ht hwant
    exact ⟨windows, replies, hmakes, hfrugal.of_imp fun _ => rfl⟩
  | delivers hwant hdeliver _ =>
    obtain ⟨windows, replies, hmakes, hfrugal⟩ := (Delivers.of_eq hdeliver).frugal ht hwant
    exact ⟨windows, replies, hmakes, hfrugal.of_imp nofun⟩
  | refused hwant hdeliver _ =>
    obtain ⟨windows, replies, hmakes, hfrugal⟩ := (Delivers.of_eq hdeliver).frugal ht hwant
    exact ⟨windows, replies, hmakes, hfrugal.of_imp nofun⟩

/-- So it is where a range of four bytes is read on behind a skip of two: only its last byte is wanted, and the one
range that is asked for has the rest. -/
theorem reads_frugally_capped :
    let src : Source (Logged (List Scripted.Turn)) (Numbered Scripted.Span) Unit :=
      ⟨(Scripted.transport ⟨#[1, 2, 3, 4, 5, 6, 7, 8]⟩).logged, none, 8⟩
    let c : Channel (Numbered Scripted.Span) :=
      adaptive { path := "object", size := 8 } { accessPattern := .random, minRangeRequestSize := 4 }
    let before := run src 9 [.read (some 1), .seek 3 0] c ⟨.start [], ()⟩
    let after := before.2.1.perform src 9 (.read (some 3)) before.2.2
    before.2.1.skipLength = 2 ∧ Call.windows after.2.2.transport.calls = [(0, 4), (4, 8)] ∧
      (Call.replies after.2.2.transport.calls).length = 5 ∧
      ∃ windows replies, before.2.2.transport.Makes after.2.2.transport windows replies ∧
        Frugal before.2.1 9 (before.2.1.wants (.read (some 3))) (after.1 = .stalled) windows replies :=
  ⟨by decide +kernel, by decide +kernel, by decide +kernel, reads_frugally (Scripted.counts _) rfl 9 _ _⟩

end RangeRead.Channel
