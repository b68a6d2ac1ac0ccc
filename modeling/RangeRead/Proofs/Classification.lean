import RangeRead.Strategy

/-!
# When random reads become sequential again

Calls of a strategy are observed from outside: the range that each request asked for, and how reads were classified
before and after each call.

- `observed` is what is seen of a sequence of calls, `spell` what is seen since the latest change to random;
- `Streak n` says that at least `n` requests were made in the spell and that the latest `n` of them each started
  where the request before it ended;
- `Recalls` relates the state to what was seen: the end it remembers is the end of the latest request, and its
  counter is the length of the streak, unless the spell has no request yet and reads were made sequential earlier.
  Then the counter still holds what it held when that happened, which is more than the threshold;
- `Requests` says what a range request comes to (`Requests.of_observe`), `observeSeek_changes` what a seek does;
- one call keeps `Recalls` (`Recalls.request`, `Recalls.turn`, `Recalls.silent`), so every sequence of calls has it
  (`recalls`);
- `made_sequential_iff`: random reads become sequential with a request that makes the streak longer than the
  threshold, and with one that uses what the counter still held.
-/

namespace RangeRead.Strategy

/-! ## Observed calls -/

/-- A call of a strategy. -/
inductive Call
  /-- A range request at `start`, from which `need` bytes are asked. -/
  | request (start need : Int)
  /-- A seek to `target` that leaves the open range. -/
  | seek (target cursor : Int)
  /-- Asks whether a seek can be served by the open range. -/
  | canSkip (target cursor stop : Int)
  deriving DecidableEq, Repr

/-- No request starts below zero. -/
def Call.Starts : Call → Prop
  | .request start _ => 0 ≤ start
  | _ => True

/-- What is seen of a call: where the range it asked for starts and ends, and whether reads counted as random
before and after it. -/
structure Seen where
  range : Option (Int × Int) := none
  wasRandom : Bool
  isRandom : Bool
  deriving DecidableEq, Repr

/-- The call made reads random. -/
def Seen.turnsRandom (e : Seen) : Bool := !e.wasRandom && e.isRandom

/-- The call made reads sequential. -/
def Seen.turnsSequential (e : Seen) : Bool := e.wasRandom && !e.isRandom

/-- One call, and what is seen of it. -/
def observe (size : Int) (s : Strategy) : Call → Seen × Strategy
  | .request start need =>
    let (stop, _, s') := s.rangeEnd start need size
    (⟨some (start, stop), s.isRandom, s'.isRandom⟩, s')
  | .seek target cursor =>
    let (_, s') := s.observeSeek target cursor
    (⟨none, s.isRandom, s'.isRandom⟩, s')
  | .canSkip _ _ _ => (⟨none, s.isRandom, s.isRandom⟩, s)

/-- The calls of a new strategy, latest first: what is seen of them, latest first, and the state they lead to. -/
def observed (size : Int) (o : ReadOptions) : List Call → List Seen × Strategy
  | [] => ([], ofOptions o)
  | call :: earlier =>
    let (seen, s) := observed size o earlier
    let (e, s') := s.observe size call
    (e :: seen, s')

/-! ## Spells and streaks -/

/-- What is seen since the latest change to random. -/
def spell (seen : List Seen) : List Seen := seen.takeWhile fun e => !e.turnsRandom

/-- The ranges asked for, latest first. -/
def ranges (seen : List Seen) : List (Int × Int) := seen.filterMap Seen.range

/-- The latest `n` ranges each start where the one before ends. -/
def BackToBack : Nat → List (Int × Int) → Prop
  | 0, _ => True
  | n + 1, later :: earlier :: rest => later.1 = earlier.2 ∧ BackToBack n (earlier :: rest)
  | _ + 1, _ => False

/-- At least `n` requests were made since the latest change to random, and the latest `n` of them each started where
the request before it ended. -/
def Streak (n : Nat) (seen : List Seen) : Prop :=
  n ≤ (ranges (spell seen)).length ∧ BackToBack n (ranges seen)

/-- Reads were made sequential before, and no request was made since they became random again. -/
def Stale (seen : List Seen) : Prop :=
  (∃ e ∈ seen, e.turnsSequential = true) ∧ ranges (spell seen) = []

/-- Where the latest range ends; `-1` before the first. -/
def lastStop (seen : List Seen) : Int := ((ranges seen).head?.map Prod.snd).getD (-1)

instance decidableBackToBack : (n : Nat) → (rs : List (Int × Int)) → Decidable (BackToBack n rs)
  | 0, _ => .isTrue trivial
  | n + 1, later :: earlier :: rest =>
    have := decidableBackToBack n (earlier :: rest)
    inferInstanceAs (Decidable (later.1 = earlier.2 ∧ BackToBack n (earlier :: rest)))
  | _ + 1, [] => .isFalse id
  | _ + 1, [_] => .isFalse id

instance (n : Nat) (seen : List Seen) : Decidable (Streak n seen) := inferInstanceAs (Decidable (_ ∧ _))

variable {e : Seen} {seen : List Seen} {n : Nat}

@[simp] theorem spell_turned (h : e.turnsRandom = true) : spell (e :: seen) = [] := by
  simp [spell, h]

@[simp] theorem spell_cons (h : e.turnsRandom = false) : spell (e :: seen) = e :: spell seen := by
  simp [spell, h]

@[simp] theorem ranges_asked {r : Int × Int} (h : e.range = some r) : ranges (e :: seen) = r :: ranges seen := by
  simp [ranges, h]

@[simp] theorem ranges_silent (h : e.range = none) : ranges (e :: seen) = ranges seen := by
  simp [ranges, h]

@[simp] theorem streak_zero : Streak 0 seen := ⟨Nat.zero_le _, trivial⟩

/-- No streak is longer than the number of requests in the spell. -/
theorem Streak.eq_zero (h : Streak n seen) (hnone : ranges (spell seen) = []) : n = 0 := by
  simpa [hnone] using h.1

/-- A range that starts where the latest one ends, of which there is one. -/
theorem backToBack_succ {r : Int × Int} {rs : List (Int × Int)} :
    BackToBack (n + 1) (r :: rs) ↔ rs.head?.map Prod.snd = some r.1 ∧ BackToBack n rs := by
  cases rs with
  | nil => simp [BackToBack]
  | cons r' rs => simp [BackToBack, eq_comm]

/-- A request prolongs a streak if it starts where the latest request ended. -/
theorem streak_succ {r : Int × Int} (hasked : e.range = some r) (hsame : e.turnsRandom = false)
    (hr : 0 ≤ r.1) : Streak (n + 1) (e :: seen) ↔ r.1 = lastStop seen ∧ Streak n seen := by
  have hends : (ranges seen).head?.map Prod.snd = some r.1 ↔ r.1 = lastStop seen := by
    unfold lastStop
    cases (ranges seen).head? with
    | none => simp; omega
    | some r' => simp [eq_comm]
  simp only [Streak, spell_cons hsame, ranges_asked hasked, List.length_cons, Nat.add_le_add_iff_right,
    backToBack_succ, hends]
  exact and_left_comm

/-- A call that asks for no range and leaves the classification as it is leaves every streak as it is. -/
theorem streak_silent (hsilent : e.range = none) (hsame : e.turnsRandom = false) :
    Streak n (e :: seen) ↔ Streak n seen := by
  simp [Streak, spell_cons hsame, ranges_silent hsilent]

/-! ## What one call does -/

/-- What a range request comes to. -/
inductive Requests (size : Int) (s : Strategy) (start : Int) : Seen → Strategy → Prop
  /-- Sequential reads ask for the rest of the object. -/
  | whole (h : s.isRandom = false) :
    Requests size s start ⟨some (start, size), false, false⟩ { s with lastEnd := size }
  /-- A random request that starts elsewhere than where the one before it ended. -/
  | apart (stop : Int) (h : s.isRandom = true) (hother : start ≠ s.lastEnd) :
    Requests size s start ⟨some (start, stop), true, true⟩ { s with backToBack := 0, lastEnd := stop }
  /-- A random request that starts where the one before it ended. -/
  | counted (stop : Int) (h : s.isRandom = true) (hnext : start = s.lastEnd)
      (hfew : s.isAuto = true → s.backToBack + 1 ≤ s.options.sequentialThreshold) :
    Requests size s start ⟨some (start, stop), true, true⟩
      { s with backToBack := s.backToBack + 1, lastEnd := stop }
  /-- The request that makes reads sequential. -/
  | turned (h : s.isRandom = true) (hnext : start = s.lastEnd)
      (henough : s.options.sequentialThreshold < s.backToBack + 1) (hauto : s.isAuto = true) :
    Requests size s start ⟨some (start, size), true, false⟩
      { s with isRandom := false, backToBack := s.backToBack + 1, lastEnd := size }

/-- Every range request comes to one of these. -/
theorem Requests.of_observe (size : Int) (s : Strategy) (start need : Int) :
    Requests size s start (s.observe size (.request start need)).1 (s.observe size (.request start need)).2 := by
  by_cases hrandom : s.isRandom = true
  · by_cases hnext : start = s.lastEnd
    · by_cases henough : s.options.sequentialThreshold < s.backToBack + 1 ∧ s.isAuto = true
      · have hturned : Requests size s start _ _ := .turned hrandom hnext henough.1 henough.2
        simpa only [observe, rangeEnd, observeRequest, extent, hrandom, if_true, if_pos hnext, if_pos henough,
          Bool.false_eq_true, if_false] using hturned
      · have hfew : s.isAuto = true → s.backToBack + 1 ≤ s.options.sequentialThreshold := fun hauto =>
          Nat.not_lt.mp fun hlt => henough ⟨hlt, hauto⟩
        have hcounted : Requests size s start _ _ := .counted (s.extent start need size) hrandom hnext hfew
        simpa only [observe, rangeEnd, observeRequest, extent, hrandom, if_true, if_pos hnext, if_neg henough]
          using hcounted
    · have hapart : Requests size s start _ _ := .apart (s.extent start need size) hrandom hnext
      simpa only [observe, rangeEnd, observeRequest, extent, hrandom, if_true, if_neg hnext] using hapart
  · have hwhole := Bool.eq_false_iff.mpr hrandom
    have hall : Requests size s start _ _ := .whole hwhole
    simpa only [observe, rangeEnd, observeRequest, extent, hwhole, Bool.false_eq_true, if_false] using hall

/-- A seek changes nothing, or it makes sequential reads random. -/
theorem observeSeek_changes (s : Strategy) (target cursor : Int) :
    (s.observeSeek target cursor).2 = s ∨
    s.isRandom = false ∧ (s.observeSeek target cursor).2 = { s with isRandom := true } := by
  unfold observeSeek
  split
  · exact .inl rfl
  · rename_i hdetects
    have hwhole : s.isRandom = false := by
      simp only [Strategy.detects] at hdetects
      cases hrandom : s.isRandom <;> simp_all
    split
    · exact .inr ⟨hwhole, rfl⟩
    · split
      · exact .inr ⟨hwhole, rfl⟩
      · exact .inl rfl

/-! ## What the state recalls -/

/-- The state of a strategy in automatic mode holds what was seen of its calls. -/
structure Recalls (t : Nat) (size : Int) (s : Strategy) (seen : List Seen) : Prop where
  /-- The mode lets the classification change. -/
  auto : s.isAuto = true
  /-- The threshold is the one the strategy was made with. -/
  threshold : s.options.sequentialThreshold = t
  /-- The latest end is remembered. -/
  ended : s.lastEnd = lastStop seen
  /-- Nothing is counted before the first change to random. -/
  fresh : s.isRandom = false → (∀ e ∈ seen, e.turnsSequential = false) → s.backToBack = 0
  /-- The counter is not put back when reads become sequential, nor before the first request of the next spell. -/
  kept : (∃ e ∈ seen, e.turnsSequential = true) → s.isRandom = false ∨ Stale seen →
    t < s.backToBack ∧ s.lastEnd = size
  /-- In other spells the counter is the length of the streak. -/
  counts : s.isRandom = true → ¬ Stale seen → ∀ n, n ≤ s.backToBack ↔ Streak n seen

variable {t : Nat} {size start : Int} {s s' : Strategy} {o : ReadOptions}

/-- A new strategy has seen nothing. -/
theorem recalls_new (hauto : o.accessPattern = .auto) : Recalls o.sequentialThreshold size (ofOptions o) [] := by
  constructor <;> simp [ofOptions, isAuto, hauto, lastStop, ranges]

/-- After a request the spell holds one. -/
theorem not_stale_of_asked {r : Int × Int} (hasked : e.range = some r) (hsame : e.turnsRandom = false) :
    ¬ Stale (e :: seen) := by
  rintro ⟨-, hnone⟩
  simp [spell_cons hsame, ranges_asked hasked] at hnone

/-- A range request. -/
theorem Recalls.request (h : Recalls t size s seen) (hstart : 0 ≤ start) (hrequests : Requests size s start e s') :
    Recalls t size s' (e :: seen) := by
  cases hrequests with
  | whole hwhole =>
    refine ⟨h.auto, h.threshold, rfl, fun _ hnever => ?_, fun hturned _ => ?_, fun hrandom => ?_⟩
    · exact h.fresh hwhole fun e he => hnever e (List.mem_cons_of_mem _ he)
    · have hbefore : ∃ e ∈ seen, e.turnsSequential = true := by simpa [Seen.turnsSequential] using hturned
      exact ⟨(h.kept hbefore (.inl hwhole)).1, rfl⟩
    · simp [hwhole] at hrandom
  | apart stop hrandom hother =>
    have hfresh : ¬ Stale (⟨some (start, stop), true, true⟩ :: seen) := not_stale_of_asked rfl rfl
    refine ⟨h.auto, h.threshold, rfl, fun hwhole => ?_, fun _ hkept => ?_, fun _ _ n => ?_⟩
    · simp [hrandom] at hwhole
    · simp [hrandom, hfresh] at hkept
    · cases n with
      | zero => simp
      | succ n =>
        rw [streak_succ rfl rfl hstart]
        simp [← h.ended, hother]
  | counted stop hrandom hnext hfew =>
    have hfresh : ¬ Stale (⟨some (start, stop), true, true⟩ :: seen) := not_stale_of_asked rfl rfl
    refine ⟨h.auto, h.threshold, rfl, fun hwhole => ?_, fun _ hkept => ?_, fun _ _ n => ?_⟩
    · simp [hrandom] at hwhole
    · simp [hrandom, hfresh] at hkept
    · have hcounting : ¬ Stale seen := fun hstale => by
        have := (h.kept hstale.1 (.inr hstale)).1
        have := hfew h.auto
        rw [h.threshold] at this
        omega
      cases n with
      | zero => simp
      | succ n =>
        rw [streak_succ rfl rfl hstart, ← h.counts hrandom hcounting n]
        simp [← h.ended, hnext]
  | turned hrandom hnext henough =>
    refine ⟨h.auto, h.threshold, rfl, fun _ hnever => ?_, fun _ _ => ⟨h.threshold ▸ henough, rfl⟩, fun hrandom => ?_⟩
    · have := hnever _ List.mem_cons_self
      simp [Seen.turnsSequential] at this
    · simp at hrandom

/-- A call that asks for no range and leaves the state as it is. -/
theorem Recalls.silent (h : Recalls t size s seen) (hsilent : e.range = none) (hsame : e.wasRandom = e.isRandom) :
    Recalls t size s (e :: seen) := by
  have hstays : e.turnsRandom = false := by cases e; simp_all [Seen.turnsRandom]
  have hturned : e.turnsSequential = false := by cases e; simp_all [Seen.turnsSequential]
  have hstale : Stale (e :: seen) ↔ Stale seen := by simp [Stale, spell_cons hstays, ranges_silent hsilent, hturned]
  refine ⟨h.auto, h.threshold, ?_, ?_, ?_, ?_⟩
  · simp [h.ended, lastStop, ranges_silent hsilent]
  · simpa [hturned] using h.fresh
  · simpa [hturned, hstale] using h.kept
  · simpa only [hstale, streak_silent hsilent hstays] using h.counts

/-- A seek that makes reads random. -/
theorem Recalls.turn (h : Recalls t size s seen) (hwhole : s.isRandom = false) :
    Recalls t size { s with isRandom := true } (⟨none, false, true⟩ :: seen) := by
  have hturned : (∃ e ∈ (⟨none, false, true⟩ : Seen) :: seen, e.turnsSequential = true) ↔
      ∃ e ∈ seen, e.turnsSequential = true := by simp [Seen.turnsSequential]
  refine ⟨h.auto, h.threshold, ?_, by simp, fun hbefore _ => ?_, fun _ hfresh n => ?_⟩
  · simp [h.ended, lastStop, ranges]
  · exact h.kept (hturned.mp hbefore) (.inl hwhole)
  · -- Nothing was counted so far, and the new spell is empty.
    have hnever : ∀ e ∈ seen, e.turnsSequential = false := by
      simpa [Stale, spell, Seen.turnsRandom, ranges, Seen.turnsSequential] using hfresh
    rw [show ({ s with isRandom := true } : Strategy).backToBack = 0 from h.fresh hwhole hnever]
    constructor
    · intro hzero
      simp [Nat.le_zero.mp hzero]
    · intro hstreak
      have := hstreak.eq_zero (by simp [spell, Seen.turnsRandom, ranges])
      omega

/-- Every sequence of calls is recalled. -/
theorem recalls (hauto : o.accessPattern = .auto) {calls : List Call} (hstarts : ∀ call ∈ calls, call.Starts) :
    Recalls o.sequentialThreshold size (observed size o calls).2 (observed size o calls).1 := by
  induction calls with
  | nil => exact recalls_new hauto
  | cons call earlier ih =>
    have hbefore := ih fun call hmember => hstarts call (List.mem_cons_of_mem _ hmember)
    simp only [observed]
    cases call with
    | request start need =>
      have hstart : 0 ≤ start := hstarts (.request start need) List.mem_cons_self
      exact hbefore.request hstart (Requests.of_observe _ _ _ _)
    | seek target cursor =>
      simp only [observe]
      rcases observeSeek_changes (observed size o earlier).2 target cursor with hunchanged | ⟨hwhole, hturned⟩
      · rw [hunchanged]
        exact hbefore.silent rfl rfl
      · rw [hturned, hwhole]
        exact hbefore.turn hwhole
    | canSkip target cursor stop => exact hbefore.silent rfl rfl

/-! ## The change back -/

/-- A request makes reads sequential if it prolongs a streak that is as long as the threshold, or if the counter is
still the one of an earlier spell. -/
theorem Recalls.turned_iff (h : Recalls t size s seen) (hstart : 0 ≤ start) (hrequests : Requests size s start e s') :
    e.turnsSequential = true ↔
      s.isRandom = true ∧ (Streak (t + 1) (e :: seen) ∨ Stale seen ∧ start = size) := by
  have hfew : s.isRandom = true → ¬ Stale seen → (t + 1 ≤ s.backToBack + 1 ↔ Streak t seen) := by
    intro hrandom hcounting
    rw [Nat.add_le_add_iff_right]
    exact h.counts hrandom hcounting t
  cases hrequests with
  | whole hwhole => simp [Seen.turnsSequential, hwhole]
  | apart stop hrandom hother =>
    have hstreak : ¬ Streak (t + 1) (⟨some (start, stop), true, true⟩ :: seen) := by
      rw [streak_succ rfl rfl hstart, ← h.ended]
      exact fun hnext => hother hnext.1
    have hstale : ¬ (Stale seen ∧ start = size) := fun ⟨hstale, hlast⟩ =>
      hother (hlast.trans (h.kept hstale.1 (.inr hstale)).2.symm)
    simp [Seen.turnsSequential, hstreak, hstale]
  | counted stop hrandom hnext hsmall =>
    have hsmall := hsmall h.auto
    rw [h.threshold] at hsmall
    have hcounting : ¬ Stale seen := fun hstale => by
      have := (h.kept hstale.1 (.inr hstale)).1
      omega
    have hstreak : ¬ Streak (t + 1) (⟨some (start, stop), true, true⟩ :: seen) := by
      rw [streak_succ rfl rfl hstart, ← hfew hrandom hcounting]
      omega
    simp [Seen.turnsSequential, hstreak, hcounting]
  | turned hrandom hnext henough =>
    rw [h.threshold] at henough
    have hstreak : Streak (t + 1) (⟨some (start, size), true, false⟩ :: seen) ∨ Stale seen ∧ start = size := by
      by_cases hstale : Stale seen
      · exact .inr ⟨hstale, hnext.trans (h.kept hstale.1 (.inr hstale)).2⟩
      · rw [streak_succ rfl rfl hstart, ← hfew hrandom hstale, ← h.ended]
        exact .inl ⟨hnext, henough⟩
    simp [Seen.turnsSequential, hrandom, hstreak]

/-- **When random reads become sequential again**: in automatic mode, after any calls on an object of one size, a
range request makes random reads sequential exactly if it makes the streak longer than the threshold, or if it is the
first request since the latest change to random, starts at the end of the object, and reads were made sequential
before. -/
theorem made_sequential_iff (o : ReadOptions) (hauto : o.accessPattern = .auto) (size : Int) (calls : List Call)
    (start need : Int) (hstarts : ∀ call ∈ .request start need :: calls, call.Starts) :
    let (seen, s) := observed size o calls
    let e := (s.observe size (.request start need)).1
    e.turnsSequential = true ↔
      s.isRandom = true ∧
        (Streak (o.sequentialThreshold + 1) (e :: seen) ∨ Stale seen ∧ start = size) := by
  have hbefore : ∀ call ∈ calls, call.Starts := fun call hmember => hstarts call (List.mem_cons_of_mem _ hmember)
  have hstart : 0 ≤ start := hstarts (.request start need) List.mem_cons_self
  exact (recalls hauto hbefore).turned_iff hstart (Requests.of_observe _ _ _ _)

/-- After a backward seek the third of three requests that follow each other makes reads sequential, if the threshold
is one. -/
theorem made_sequential_third :
    ((observed 10000000 .standard
      [.request 4194304 1, .request 2097152 1, .request 0 1, .seek 0 5]).1.head?.map Seen.turnsSequential) =
      some true := by
  have hthird := (made_sequential_iff .standard rfl 10000000 [.request 2097152 1, .request 0 1, .seek 0 5] 4194304 1
    (by simp [Call.Starts])).mpr ⟨by decide, .inl (by decide)⟩
  exact congrArg some hthird

/-- The count of an earlier spell outlives it: with a threshold of one, the only request since the latest change to
random, at the end of the object, makes reads sequential. -/
theorem stale_count_turns :
    let seen := (observed 10 .standard
      [.request 10 1, .seek 0 5, .request 0 1, .request 10 1, .request 10 1, .seek 0 5, .request 0 1]).1
    seen.head?.map Seen.turnsSequential = some true ∧ (ranges (spell seen)).length = 1 ∧ ¬ Streak 2 seen := by
  decide

end RangeRead.Strategy
