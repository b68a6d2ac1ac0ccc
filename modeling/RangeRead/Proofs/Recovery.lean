import RangeRead.Proofs.Channel.Laps
import RangeRead.Proofs.Reading

/-!
# Back to one long range

In automatic mode reads that follow each other come to be served by one range up to the end of the object, whatever
was done before: over a transport that does not fail any more they open two ranges more than the threshold at most, and
if so many, the last one ends with the object (`auto_recovers`).

How many ranges reads may still open is the `allowance` of a channel. A lap that opens a range takes it from the
allowance, and no other lap raises it (`Lap.recovers`); neither does bringing the range to the position
(`reposition_recovers`).
-/

namespace RangeRead

/-! ## Strategies -/

namespace Strategy

/-- How many ranges reads may still open one behind the other, the last of which ends with the object. -/
def following (s : Strategy) : Nat :=
  if s.isRandom then max 1 (s.options.sequentialThreshold + 1 - s.backToBack) else 1

/-- How many they may open from a position on: a first one more, if it does not follow the latest. -/
def opening (s : Strategy) (position : Int) : Nat :=
  if s.isRandom ∧ position ≠ s.lastEnd then s.options.sequentialThreshold + 2 else s.following

/-- How many they may open behind a range that ends before `stop`. -/
def behind (s : Strategy) (stop size : Int) : Nat := if stop = size then 0 else s.following

theorem following_pos (s : Strategy) : 0 < s.following := by
  unfold following
  split <;> omega

theorem following_le (s : Strategy) : s.following ≤ s.options.sequentialThreshold + 1 := by
  unfold following
  split <;> omega

theorem opening_le (s : Strategy) (position : Int) : s.opening position ≤ s.options.sequentialThreshold + 2 := by
  have hle := s.following_le
  unfold opening
  split <;> omega

theorem behind_le (s : Strategy) (stop size : Int) : s.behind stop size ≤ s.options.sequentialThreshold + 2 := by
  have hle := s.following_le
  unfold behind
  split <;> omega

/-- Where the latest range ended there is no first one more. -/
theorem opening_lastEnd (s : Strategy) : s.opening s.lastEnd = s.following := if_neg fun h => h.2 rfl

/-- What a request says about the pattern lowers the number of ranges that may follow, or reads do not count as random
any more. -/
theorem observeRequest_following {s : Strategy} (hauto : s.isAuto = true) (start : Int) :
    (s.observeRequest start).2.isRandom = false ∨ (s.observeRequest start).2.following + 1 ≤ s.opening start := by
  unfold observeRequest
  split
  · rename_i hrandom
    split
    · rename_i hstart
      subst hstart
      dsimp only
      split
      · exact .inl rfl
      · rename_i hstays
        right
        rw [opening_lastEnd]
        unfold following
        simp only [hrandom, hauto, and_true, if_true] at hstays ⊢
        omega
    · rename_i hstart
      right
      unfold opening following
      simp only [hrandom, true_and, if_true, if_pos hstart]
      omega
  · rename_i hrandom
    exact .inl (by simpa using hrandom)

/-- A range request lowers the number by one. -/
theorem rangeEnd_opening {s : Strategy} (hauto : s.isAuto = true) (start need size : Int) :
    (s.rangeEnd start need size).2.2.behind (s.rangeEnd start need size).1 size + 1 ≤ s.opening start := by
  unfold behind
  split
  · have hpos := s.following_pos
    unfold opening
    split <;> omega
  · rename_i hstop
    rcases observeRequest_following hauto start with hsequential | hless
    · exact absurd (rangeEnd_of_sequential hsequential) hstop
    · exact hless

/-- A seek does not change what the latest request was. -/
theorem observeSeek_lastEnd (s : Strategy) (target cursor : Int) :
    (s.observeSeek target cursor).2.lastEnd = s.lastEnd := by
  unfold observeSeek
  split
  · rfl
  · split
    · rfl
    · split <;> rfl

end Strategy

/-- Where the latest range request of an adaptive channel ended. -/
def Sizing.lastEnd : Sizing → Option Int
  | .wholeObject => none
  | .adaptive strategy => some strategy.lastEnd

theorem Sizing.observeSeek_lastEnd (z : Sizing) (target cursor : Int) :
    (z.observeSeek target cursor).2.lastEnd = z.lastEnd := by
  cases z with
  | wholeObject => rfl
  | adaptive strategy => exact congrArg some (strategy.observeSeek_lastEnd target cursor)

namespace Channel

variable {σ H ρ : Type} {t : Transport σ H} {o : ObjectHandle} {v : View σ H} {recorder : Option (Recorder ρ)}
  {memory : Nat}

/-! ## Automatic channels -/

/-- A sized channel that finds out by itself whether its reads are random. -/
structure Automatic (c : Channel H) : Prop extends Sized c where
  adaptive : c.sizing ≠ .wholeObject
  mode : c.options.accessPattern = .auto

theorem Automatic.strategy {c : Channel H} (h : Automatic c) :
    ∃ strategy, c.sizing = .adaptive strategy ∧ strategy.options = c.options ∧ strategy.isAuto = true := by
  obtain ⟨⟨hfits, -⟩, hadaptive, hmode⟩ := h
  cases hsizing : c.sizing with
  | wholeObject => exact absurd hsizing hadaptive
  | adaptive strategy =>
    rw [hsizing] at hfits
    have hoptions := hfits.options_eq
    refine ⟨strategy, rfl, hoptions, ?_⟩
    unfold Strategy.isAuto
    rw [hoptions, hmode]
    rfl

theorem reposition_automatic (n : Nat) {c : Channel H} (s : σ) (h : Automatic c) :
    Automatic (reposition t n c s).2.1 :=
  ⟨reposition_sized n s h.toSized, mt (reposition_kind n c s).mp h.adaptive,
    (reposition_sameAs n c s).1.options ▸ h.mode⟩

theorem Lap.automatic {c c' : Channel H} {windows windows' : List (Int × Int)} (h : Lap (c, windows) (c', windows'))
    (hc : Automatic c) : Automatic c' :=
  ⟨h.sized hc.toSized, mt h.kind.mp hc.adaptive, h.sameAs.options ▸ hc.mode⟩

/-! ## Allowances -/

/-- How many ranges reads may still open on an automatic channel. Where the range is elsewhere than the position,
nothing is known of the pattern yet. -/
def allowance (c : Channel H) : Nat :=
  match c.sizing, c.range with
  | .wholeObject, _ => 0
  | .adaptive strategy, none => strategy.opening c.position
  | .adaptive strategy, some r =>
    if r.cursor = c.position then strategy.behind r.stop c.object.size else c.options.sequentialThreshold + 2

theorem allowance_of_none {c : Channel H} {strategy : Strategy} (hsizing : c.sizing = .adaptive strategy)
    (hr : c.range = none) : c.allowance = strategy.opening c.position := by
  unfold allowance
  rw [hsizing, hr]

theorem allowance_of_range {c : Channel H} {strategy : Strategy} {r : OpenRange H}
    (hsizing : c.sizing = .adaptive strategy) (hr : c.range = some r) : c.allowance =
      if r.cursor = c.position then strategy.behind r.stop c.object.size else c.options.sequentialThreshold + 2 := by
  unfold allowance
  rw [hsizing, hr]

theorem Automatic.allowance_le {c : Channel H} (h : Automatic c) :
    c.allowance ≤ c.options.sequentialThreshold + 2 := by
  obtain ⟨strategy, hsizing, hoptions, -⟩ := h.strategy
  rw [← hoptions]
  cases hr : c.range with
  | none =>
    rw [allowance_of_none hsizing hr]
    exact strategy.opening_le _
  | some r =>
    rw [allowance_of_range hsizing hr, ← hoptions]
    split
    · exact strategy.behind_le _ _
    · exact Nat.le_refl _

/-- The latest request of an automatic channel is the one that opened its range. -/
theorem Automatic.lastEnd_of_range {c : Channel H} {strategy : Strategy} {r : OpenRange H} (h : Automatic c)
    (hsizing : c.sizing = .adaptive strategy) (hr : c.range = some r) : strategy.lastEnd = r.stop := by
  have hadmits := h.admits r hr
  rw [hsizing] at hadmits
  exact hadmits.1

/-- Where nothing may be opened any more the range that is open ends with the object, and the latest request with it. -/
theorem Automatic.lastEnd_of_allowance {c : Channel H} (h : Automatic c) (h0 : c.allowance = 0) :
    c.sizing.lastEnd = some (c.object.size : Int) := by
  obtain ⟨strategy, hsizing, -, -⟩ := h.strategy
  have hpos := strategy.following_pos
  cases hr : c.range with
  | none =>
    rw [allowance_of_none hsizing hr] at h0
    unfold Strategy.opening at h0
    split at h0 <;> omega
  | some r =>
    rw [allowance_of_range hsizing hr] at h0
    unfold Strategy.behind at h0
    split at h0
    · split at h0
      · rename_i hstop
        rw [hsizing, ← hstop, ← h.lastEnd_of_range hsizing hr]
        rfl
      · omega
    · omega

/-- The ranges `opened` on the way from `c` to `c'` were allowed, and the last of them is the latest request. -/
structure Recovers (c : Channel H) (opened : List (Int × Int)) (c' : Channel H) : Prop where
  allowed : opened.length + c'.allowance ≤ c.allowance
  latest : (opened.getLast?.map Prod.snd).or c.sizing.lastEnd = c'.sizing.lastEnd

theorem Recovers.refl (c : Channel H) : Recovers c [] c := ⟨Nat.le_of_eq (Nat.zero_add _), rfl⟩

theorem Recovers.trans {c₁ c₂ c₃ : Channel H} {opened more : List (Int × Int)} (h : Recovers c₁ opened c₂)
    (h' : Recovers c₂ more c₃) : Recovers c₁ (opened ++ more) c₃ where
  allowed := by
    have hallowed := h.allowed
    have hallowed' := h'.allowed
    rw [List.length_append]
    omega
  latest := by
    rw [← h'.latest, ← h.latest, List.getLast?_append]
    cases more.getLast? <;> rfl

/-! ## Laps -/

theorem nextSizing_of_adaptive {c : Channel H} {strategy : Strategy} (hsizing : c.sizing = .adaptive strategy)
    (need : Int) : c.nextSizing need = .adaptive (strategy.rangeEnd c.position need c.object.size).2.2 := by
  unfold nextSizing
  rw [hsizing]
  rfl

theorem nextStop_of_adaptive {c : Channel H} {strategy : Strategy} (hsizing : c.sizing = .adaptive strategy)
    (need : Int) : c.nextStop need = (strategy.rangeEnd c.position need c.object.size).1 := by
  unfold nextStop
  rw [hsizing]
  rfl

/-- A lap opens only what is allowed. -/
theorem Lap.recovers {c c' : Channel H} {windows windows' : List (Int × Int)} (h : Lap (c, windows) (c', windows'))
    (hc : Automatic c) (ha : Aligned c) : ∃ opened, windows' = windows ++ opened ∧ Recovers c opened c' := by
  obtain ⟨strategy, hsizing, -, hauto⟩ := hc.strategy
  cases h with
  | @opens _ _ need h hr =>
    have hnext := nextSizing_of_adaptive hsizing need
    have hstop := nextStop_of_adaptive hsizing need
    refine ⟨_, rfl, ?_, ?_⟩
    · have hless := Strategy.rangeEnd_opening hauto c.position need c.object.size
      rw [allowance_of_none hsizing hr, allowance_of_range hnext rfl, if_pos rfl, hstop, List.length_singleton,
        Nat.add_comm]
      exact hless
    · rw [hnext, hstop]
      rfl
  | @reads _ _ r h n hr =>
    have hcursor : (r.advance h n).cursor = c.position + n := congrArg (· + n) (ha r hr)
    have hafter := allowance_of_range (r := r.advance h n)
      (c := { c with position := c.position + n, range := some (r.advance h n) }) hsizing rfl
    rw [if_pos hcursor] at hafter
    refine ⟨[], (List.append_nil _).symm, ?_, rfl⟩
    rw [hafter, allowance_of_range hsizing hr, if_pos (ha r hr)]
    exact Nat.le_of_eq (Nat.zero_add _)
  | @continues _ _ r hr hposition hsize =>
    have hafter := allowance_of_none (H := H) (c := { c with range := none }) hsizing rfl
    have hopening : strategy.opening c.position = strategy.following := by
      rw [hposition, ← hc.lastEnd_of_range hsizing hr, Strategy.opening_lastEnd]
    refine ⟨[], (List.append_nil _).symm, ?_, rfl⟩
    rw [hafter, hopening, allowance_of_range hsizing hr, if_pos (ha r hr)]
    unfold Strategy.behind
    rw [if_neg hsize]
    exact Nat.le_of_eq (Nat.zero_add _)

/-- Laps open only what is allowed. -/
theorem Laps.recovers {p q : Channel H × List (Int × Int)} (h : Laps p q) (hc : Automatic p.1) (ha : Aligned p.1) :
    (Automatic q.1 ∧ Aligned q.1) ∧ ∃ opened, q.2 = p.2 ++ opened ∧ Recovers p.1 opened q.1 := by
  induction h with
  | refl => exact ⟨⟨hc, ha⟩, [], (List.append_nil _).symm, .refl _⟩
  | @tail q q' _ hlap ih =>
    obtain ⟨⟨hc₁, ha₁⟩, opened, hopened, hrecovers⟩ := ih
    obtain ⟨more, hmore, hrecovers'⟩ := hlap.recovers hc₁ ha₁
    refine ⟨⟨hlap.automatic hc₁, hlap.aligned ha₁⟩, opened ++ more, ?_, hrecovers.trans hrecovers'⟩
    rw [hmore, hopened, List.append_assoc]

/-! ## Reads -/

/-- Bringing the range to the position does not change what the latest request was. -/
theorem reposition_lastEnd (n : Nat) (c : Channel H) (s : σ) :
    (reposition t n c s).2.1.sizing.lastEnd = c.sizing.lastEnd := by
  cases hr : c.range with
  | none => rw [reposition_of_none n hr]
  | some r =>
    rw [reposition_of_range n hr]
    split
    · rfl
    · split
      · rw [(skips_skip n c s).eq_range]
      · exact Sizing.observeSeek_lastEnd _ _ _

/-- Bringing the range to the position does not raise the allowance. -/
theorem reposition_recovers (n : Nat) {c : Channel H} (s : σ) (hc : Automatic c) :
    Recovers c [] (reposition t n c s).2.1 := by
  refine ⟨?_, (reposition_lastEnd n c s).symm⟩
  have hbound := (reposition_automatic (t := t) n s hc).allowance_le
  rw [(reposition_sameAs n c s).1.options] at hbound
  obtain ⟨strategy, hsizing, -, -⟩ := hc.strategy
  rw [List.length_nil, Nat.zero_add]
  cases hr : c.range with
  | none =>
    have hsame : (reposition t n c s).2.1 = c := by rw [reposition_of_none n hr]
    exact Nat.le_of_eq (congrArg allowance hsame)
  | some r =>
    by_cases hposition : c.position = r.cursor
    · have hsame : (reposition t n c s).2.1 = c := by rw [reposition_of_range n hr, if_pos hposition]
      exact Nat.le_of_eq (congrArg allowance hsame)
    · rw [allowance_of_range hsizing hr, if_neg (Ne.symm hposition)]
      exact hbound

section Reads

variable (recorder memory) (ht : t.Steady o v)
include ht

/-- A delivery opens only what is allowed. -/
theorem Delivers.recovers {n want : Nat} {gap : Nat → Nat → ByteArray} {c c' : Channel H} {s s' : Listed σ}
    {a : Outcome ReadError Filling} (h : Delivers t.listing n want gap c s a c' s') (hp : Placed v.listing o c s)
    (hc : Automatic c) (hwant : 0 < want) :
    Automatic c' ∧ ∃ opened, s'.windows = s.windows ++ opened ∧ Recovers c opened c' := by
  obtain ⟨a₁, c₁, s₁, hreposition, hends, -⟩ := h.laps ht hp hwant
  have hc₁ := reposition_automatic (t := t.listing) n s hc
  have hrecovers := reposition_recovers (t := t.listing) n s hc
  have haligned := (reposition_placed (n := n) ht.listing.toHonest hp).2
  rw [hreposition] at hc₁ hrecovers haligned
  rcases hends with ⟨rfl, hlaps⟩ | ⟨-, rfl, hwindows⟩
  · obtain ⟨⟨hc', -⟩, opened, hopened, hrecovers'⟩ := Laps.recovers hlaps hc₁ (haligned rfl)
    exact ⟨hc', opened, hopened, hrecovers.trans hrecovers'⟩
  · exact ⟨hc₁, [], by rw [hwindows, List.append_nil], hrecovers⟩

/-- A read opens only what is allowed. -/
theorem perform_recovers {operation : Operation} (hread : operation.isRead = true) (n : Nat) {c : Channel H}
    {w : World (Listed σ) ρ} (hp : Placed v.listing o c w.transport) (hc : Automatic c) :
    let after := c.perform ⟨t.listing, recorder, memory⟩ n operation w
    Automatic after.2.1 ∧
      ∃ opened, after.2.2.transport.windows = w.transport.windows ++ opened ∧ Recovers c opened after.2.1 := by
  have hreads := @perform_readsTo _ _ _ ⟨t.listing, recorder, memory⟩ n operation hread c w
  generalize c.perform ⟨t.listing, recorder, memory⟩ n operation w = after at hreads ⊢
  obtain ⟨a, c', w'⟩ := after
  cases hreads with
  | nothing _ => exact ⟨hc, [], (List.append_nil _).symm, .refl _⟩
  | fails hwant hdeliver => exact (Delivers.of_eq hdeliver).recovers ht hp hc hwant
  | stalls hwant hdeliver => exact (Delivers.of_eq hdeliver).recovers ht hp hc hwant
  | delivers hwant hdeliver _ => exact (Delivers.of_eq hdeliver).recovers ht hp hc hwant
  | refused hwant hdeliver _ => exact (Delivers.of_eq hdeliver).recovers ht hp hc hwant

/-- Reads one after the other open only what is allowed. -/
theorem run_recovers {operations : List Operation} (hreads : ∀ operation ∈ operations, operation.isRead = true)
    (n : Nat) {c : Channel H} {w : World (Listed σ) ρ} (hp : Placed v.listing o c w.transport) (hc : Automatic c) :
    let after := run ⟨t.listing, recorder, memory⟩ n operations c w
    Automatic after.2.1 ∧
      ∃ opened, after.2.2.transport.windows = w.transport.windows ++ opened ∧ Recovers c opened after.2.1 := by
  induction operations generalizing c w with
  | nil => exact ⟨hc, [], (List.append_nil _).symm, .refl c⟩
  | cons operation operations ih =>
    rw [List.forall_mem_cons] at hreads
    obtain ⟨hc₁, opened, hopened, hrecovers⟩ :=
      perform_recovers recorder memory ht hreads.1 n hp hc
    have hp₁ : Placed v.listing o (c.perform ⟨t.listing, recorder, memory⟩ n operation w).2.1
        (c.perform ⟨t.listing, recorder, memory⟩ n operation w).2.2.transport :=
      (placed_invariant ht.listing.toHonest).perform hp n operation
    obtain ⟨hc', more, hmore, hrecovers'⟩ := ih hreads.2 hp₁ hc₁
    rw [run_cons]
    refine ⟨hc', opened ++ more, ?_, hrecovers.trans hrecovers'⟩
    rw [hmore, hopened, List.append_assoc]

end Reads

/-- **Automatic mode comes back to one long range.** From any state that an adaptive channel came to, over a transport
that does not fail any more, reads open two ranges more than the threshold at most; if they open so many, the last of
them ends with the object. -/
theorem auto_recovers (ht : t.Honest o v) {s : σ} (hidle : v.idle s) {r : ρ} {c : Channel H} {w : World (Listed σ) ρ}
    (h : Reached ⟨t.listing, recorder, memory⟩ o ⟨.start s, r⟩ c w) (hadaptive : c.sizing ≠ .wholeObject)
    (hauto : c.options.accessPattern = .auto) {v' : View σ H} (hsteady : t.Steady o v')
    (hnow : v'.Holds o c.range w.transport.behind) {operations : List Operation}
    (hreads : ∀ operation ∈ operations, operation.isRead = true) (n : Nat) :
    ∃ opened, (run ⟨t.listing, recorder, memory⟩ n operations c w).2.2.transport.windows =
        w.transport.windows ++ opened ∧
      opened.length ≤ c.options.sequentialThreshold + 2 ∧
      (opened.length = c.options.sequentialThreshold + 2 →
        opened.getLast?.map Prod.snd = some (o.size : Int)) := by
  have hstart : v.listing.idle (.start s) := hidle
  have hbefore : Placed v.listing o c w.transport :=
    (placed_invariant ht.listing).reached (fun _ hnew ho => hnew.placed ho hstart) h
  have hsized : Sized c := (sized_invariant t.listing).reached (fun _ hnew _ => hnew.sized) h
  have hp : Placed v'.listing o c w.transport := by
    refine ⟨hbefore.object, hbefore.nonneg, hbefore.le_size, ?_⟩
    cases hr : c.range with
    | none =>
      rw [hr] at hnow
      exact hnow
    | some r =>
      rw [hr] at hnow
      exact hnow
  have hc : Automatic c := ⟨hsized, hadaptive, hauto⟩
  obtain ⟨hc', opened, hopened, hallowed, hlatest⟩ :=
    run_recovers recorder memory hsteady hreads n hp hc
  have hbound := hc.allowance_le
  refine ⟨opened, hopened, by omega, fun hlength => ?_⟩
  have hp' : Placed v'.listing o (run ⟨t.listing, recorder, memory⟩ n operations c w).2.1
      (run ⟨t.listing, recorder, memory⟩ n operations c w).2.2.transport :=
    (placed_invariant hsteady.listing.toHonest).run hp n operations
  have hlast := hc'.lastEnd_of_allowance (by omega)
  rw [hp'.object, ← hlatest] at hlast
  cases hends : opened.getLast? with
  | none =>
    rw [List.getLast?_eq_none_iff.mp hends] at hlength
    exact nomatch hlength
  | some window =>
    rw [hends] at hlast
    exact hlast

/-- So it is after a range was refused and another one was left for a seek backwards, with a second such seek pending:
two ranges are read up to their ends, and the third ends with the object. -/
theorem auto_recovers_rewound :
    let object : ObjectHandle := { path := "object", size := 8 }
    let src : Source (Listed (List Scripted.Turn)) Scripted.Span Unit :=
      ⟨(Scripted.transport ⟨#[1, 2, 3, 4, 5, 6, 7, 8]⟩).listing, none, 8⟩
    let before := run src 9 [.read (some 4), .read (some 4), .seek 1 0, .read (some 1), .seek 0 0]
      (adaptive object { minRangeRequestSize := 2 })
      ⟨.start [.fails .closedRange, .delivers 4, .delivers 1, .delivers 1], ()⟩
    let after := run src 9 [.read (some 2), .readInto ⟨#[0, 0]⟩, .read (some 1), .readAll] before.2.1 before.2.2
    before.2.2.transport.windows = [(0, 8), (1, 3)] ∧
      after.2.2.transport.windows = [(0, 8), (1, 3), (0, 2), (2, 4), (4, 8)] ∧
      ∃ opened, after.2.2.transport.windows = before.2.2.transport.windows ++ opened ∧
        opened.length ≤ before.2.1.options.sequentialThreshold + 2 ∧
        (opened.length = before.2.1.options.sequentialThreshold + 2 →
          opened.getLast?.map Prod.snd = some ((8 : Nat) : Int)) := by
  have ht := Scripted.truthful (P := fun _ => True) (fun _ => trivial) { path := "object", size := 8 }
    ⟨#[1, 2, 3, 4, 5, 6, 7, 8]⟩
  have hnew : IsNew (adaptive { path := "object", size := 8 } { minRangeRequestSize := 2 } :
    Channel Scripted.Span) := .adaptive _ _
  exact ⟨by decide +kernel, by decide +kernel,
    auto_recovers ht.toHonest trivial ((Reached.new hnew rfl).run 9 _) (by decide +kernel) (by decide +kernel)
      (Scripted.steady rfl) (by decide +kernel) (by decide +kernel) 9⟩

end Channel

end RangeRead
