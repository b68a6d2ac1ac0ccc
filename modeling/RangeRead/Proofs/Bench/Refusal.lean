import RangeRead.Proofs.Bench.Repetition

/-!
# Refused pauses

Where the pauses of a benchmark are refused no range is opened (`benchTransport_refuses`). A read that needs one fails
then, with the refusal as the cause (`Channel.read_refusing`), so that an iteration fails with the first window that it
demands, if there is one (`iteration_refused`). A benchmark ends with the first iteration that fails
(`iterations_fail`), so it comes to the same after one attempt, and nothing is asked of the store (`run_refused`).
-/

namespace RangeRead

variable {σ C H ρ : Type} {t : Transport σ H} {e : ReadError} {P : σ → Prop} {memory n : Nat}

/-- The transport opens no range and always answers with the same error. What it does then, and notices, keep the
property. -/
structure Transport.Refuses (t : Transport σ H) (e : ReadError) (P : σ → Prop) : Prop where
  answers : ∀ object start stop s, (t.openRange object start stop s).1 = .error e
  openRange : ∀ {s} object start stop, P s → P (t.openRange object start stop s).2
  note : ∀ {s} notice, P s → P (t.note notice s)

namespace Channel

variable {c : Channel H} {s : σ}

/-! ## Without a range -/

/-- Without a range moving changes no more than the position. -/
theorem moveTo_of_none (target : Int) (hr : c.range = none) :
    c.moveTo t target s = (c.movedTo target, s) ∧ (c.movedTo target).range = none := by
  unfold moveTo movedTo
  cases hsizing : c.sizing with
  | adaptive strategy => exact ⟨rfl, hr⟩
  | wholeObject =>
    dsimp only
    split
    · exact ⟨rfl, hr⟩
    · rw [dropRange_of_none hr]
      dsimp only
      rw [hr, hsizing]
      exact ⟨rfl, rfl⟩

/-- Without a range a read that wants something asks for one. -/
theorem demand_read_of_none {k : Option Int} (hr : c.range = none) (hengages : c.Engages memory (.read k)) :
    (c.outline.demand memory (.read k)).windows = [(c.position, c.nextStop (c.wants (.read k)))] := by
  have hrange : c.outline.range = none := by
    show c.range.map _ = none
    rw [hr]
    rfl
  unfold demand
  dsimp only
  rw [progress_of_read rfl hengages.1, if_pos (c := c.outline.Engages memory _) hengages]
  unfold reading
  rw [hrange]
  rfl

/-- A read that wants nothing does nothing. -/
theorem read_of_not_engages {src : Source σ H ρ} {k : Option Int} (hopen : c.closed = false) (h0 : 0 ≤ c.position)
    (hle : c.position ≤ c.object.size) (hmemory : c.object.size ≤ src.memory)
    (hengages : ¬c.Engages src.memory (.read k)) (w : World σ ρ) :
    c.read src n k w = (.done .empty, c, w) ∧ c.outline.progress src.memory (.read k) = (c.outline, []) := by
  have hnothing : c.asked k ≤ 0 := by
    have hasked := asked_eq h0 hle k
    have hdue := due_le (c.object.size - c.position.toNat) k
    by_contra hsome
    exact hengages ⟨hopen, by show 0 < (c.asked k).toNat; omega, by show c.asked k ≤ (src.memory : Int); omega⟩
  constructor
  · unfold read
    rw [if_neg (by simp [hopen]), if_pos hnothing]
  · rw [progress_of_read rfl hopen, if_neg (c := c.outline.Engages src.memory _) hengages]

/-- Without a range closing does nothing with the transport. -/
theorem close_of_none (hr : c.range = none) : (c.close t s).2 = s := by
  unfold close
  split
  · rfl
  · rw [dropRange_of_none hr]

/-! ## Reads -/

variable (ht : t.Refuses e P) (hs : P s) (hr : c.range = none)
include ht hs hr

theorem ensureRange_refusing (need : Int) :
    ∃ s', c.ensureRange t need s =
      (.error (.notOpened c.position (c.nextStop need) c.object e), { c with sizing := c.nextSizing need }, s') ∧
      P s' := by
  have hnoted : P (c.noted t need s) := noteChange_keeps ht.note _ hs
  have hanswer := ht.answers c.object c.position (c.nextStop need) (c.noted t need s)
  have hkept := ht.openRange c.object c.position (c.nextStop need) hnoted
  rw [ensureRange_of_none hr]
  unfold Transport.openPinned
  cases hopen : t.openRange c.object c.position (c.nextStop need) (c.noted t need s) with
  | mk a s' =>
    rw [hopen] at hanswer hkept
    cases hanswer
    exact ⟨s', rfl, hkept⟩

/-- A read that needs a range fails. -/
theorem read_refusing (hn : 0 < n) {k : Option Int} (hengages : c.Engages memory (.read k)) :
    ∃ c' s', c.read ⟨t, none, memory⟩ n k ⟨s, ()⟩ =
      (.failed (.notOpened c.position (c.nextStop (c.wants (.read k))) c.object e), c', ⟨s', ()⟩) ∧
      c'.range = none ∧ P s' := by
  obtain ⟨n, rfl⟩ := Nat.exists_eq_add_one_of_ne_zero (Nat.ne_of_gt hn)
  obtain ⟨s', hensure, hs'⟩ := ensureRange_refusing ht hs hr ((c.asked k).toNat : Int)
  have hcount : ((c.asked k).toNat : Int) - ({} : Filling).count = (c.asked k).toNat := Int.sub_zero _
  have hfill := (@Fills.notOpened _ _ t (c.asked k).toNat blank n {} c s _ _ _ (by rw [hcount, hensure])).eq
  have hdeliver : deliver t (n + 1) (c.asked k).toNat blank c s =
      (.failed (.notOpened c.position (c.nextStop (c.asked k).toNat) c.object e),
        { c with sizing := c.nextSizing (c.asked k).toNat }, s') := by
    unfold deliver
    rw [reposition_of_none (n + 1) hr]
    dsimp only
    rw [hfill]
  refine ⟨{ c with sizing := c.nextSizing (c.asked k).toNat }, s', ?_, hr, hs'⟩
  rw [@read_of_engages _ _ _ ⟨t, none, memory⟩ _ _ _ hengages]
  unfold deliverAndReport
  dsimp only
  rw [hdeliver]
  rfl

end Channel

namespace Bench

variable {o : ObjectHandle}

/-! ## Iterations -/

/-- What comes of asking for windows where no range is opened: the first one fails, if there is one. -/
def refusing (o : ObjectHandle) (e : ReadError) : List (Int × Int) → Outcome ReadError Unit
  | [] => .done ()
  | (start, stop) :: _ => .failed (.notOpened start stop o e)

/-- A workload fails with the first window that it demands. -/
theorem replay_refused (ht : t.Refuses e P) (hn : 0 < n) {workload : Workload} {c : Channel H}
    (hmemory : c.object.size ≤ memory) (hopen : c.closed = false) (hr : c.range = none)
    (hinside : ∀ read ∈ workload, 0 ≤ read.1 ∧ read.1 ≤ c.object.size) {s : σ} (hs : P s) :
    ∃ c' s', replay t memory n workload c s =
      (refusing c.object e (c.outline.demands memory (session workload)).windows, c', s') ∧ c'.range = none ∧ P s' := by
  induction workload generalizing c with
  | nil =>
    have hclose : (c.outline.demands memory (session [])).windows = (c.outline.progress memory .close).2 ++ [] := rfl
    rw [hclose, Channel.progress_of_close hopen]
    exact ⟨c, s, rfl, hr, hs⟩
  | cons read reads ih =>
    obtain ⟨offset, length⟩ := read
    rw [List.forall_mem_cons] at hinside
    obtain ⟨⟨h0, hle⟩, hinside⟩ := hinside
    have hsame := Channel.movedTo_sameAs offset c
    have hopen₁ : (c.movedTo offset).closed = false := hsame.closed.trans hopen
    obtain ⟨hmove, hr₁⟩ := @Channel.moveTo_of_none _ _ t c s offset hr
    have hseek := @Channel.seek_start _ _ t offset c s hopen h0 hle
    have hwindows := congrArg Demand.windows
      (@demands_session_cons memory c.outline hopen offset h0 hle length reads)
    rw [← Channel.movedTo_outline] at hwindows
    have hposition := Channel.movedTo_position offset c
    rw [← hposition] at h0 hle
    rw [← hsame.object] at hmemory hle hinside
    rw [hwindows, ← hsame.object, replay, hseek, hmove]
    dsimp only
    by_cases hengages : (c.movedTo offset).Engages memory (.read (some length))
    · -- the window that it asks for is the first one
      obtain ⟨c', s', hfails, hr', hs'⟩ := Channel.read_refusing ht hs hr₁ hn hengages
      rw [Channel.demand_read_of_none hr₁ hengages, hfails]
      exact ⟨c', s', rfl, hr', hs'⟩
    · obtain ⟨hread, hprogress⟩ := @Channel.read_of_not_engages _ _ _ n _ ⟨t, none, memory⟩ _ hopen₁ h0 hle hmemory
        hengages ⟨s, ()⟩
      have hnothing : ((c.movedTo offset).outline.demand memory (.read (some length))).windows = [] :=
        congrArg Prod.snd hprogress
      rw [hnothing, hprogress, hread]
      exact ih hmemory hopen₁ hr₁ hinside

/-- Where pauses are refused no range is opened, and there are no more pauses. -/
theorem benchTransport_refuses (t : Transport σ H) (hnote : ∀ {s} notice, P s → P (t.note notice s)) (fault : Fault)
    (pauses : Nat) : (benchTransport t (some fault)).Refuses (.outside fault) fun s =>
      P s.behind.behind ∧ s.behind.pauses = pauses where
  answers _ _ _ _ := rfl
  openRange _ _ _ hs := hs
  note notice hs := ⟨hnote notice hs.1, hs.2⟩

/-- An iteration whose pauses are refused fails with the first window that it demands. -/
theorem iteration_refused (t : Transport σ H) (hnote : ∀ {s} notice, P s → P (t.note notice s)) (fault : Fault)
    (hmemory : o.size ≤ memory) (hn : 0 < n) (options : ReadOptions) {workload : Workload}
    (hinside : ∀ read ∈ workload, 0 ≤ read.1 ∧ read.1 ≤ o.size) {s : BenchState σ} (hs : P s.behind.behind) :
    ∃ s', iteration t (some fault) memory n o options workload s =
      (refusing o (.outside fault) (iterationDemand memory o options workload).windows, s') ∧
      P s'.behind.behind ∧ s'.behind.pauses = s.behind.pauses := by
  obtain ⟨hnew, hobject⟩ := Channel.openRead_isNew (openRead_eq (H := TracedRange H) o options)
  rw [← hobject] at hmemory hinside
  obtain ⟨c', s', hreplay, hr, hs'⟩ := replay_refused (benchTransport_refuses t hnote fault s.behind.pauses) hn hmemory
    hnew.closed hnew.range hinside (s := { s with trace := s.trace.clear }) ⟨hs, rfl⟩
  rw [opened_outline, hobject] at hreplay
  refine ⟨s', ?_, hs'⟩
  unfold iteration
  rw [openRead_eq]
  dsimp only
  rw [hreplay]
  dsimp only
  rw [Channel.close_of_none hr]
  rfl

/-! ## Benchmarks -/

/-- The first iteration that fails ends a benchmark. -/
theorem iterations_fail {m : Type → Type} [Monad m] [LawfulMonad m] {watch : Stopwatch m} (hwatch : watch.Faithful)
    (latency : Float) {options : ReadOptions} {workload : Workload} {s s' : BenchState σ}
    (hfails : iteration t (watch.refusal latency) memory n o options workload s = (.failed e, s')) (count : Nat) :
    iterations watch latency t memory n o options workload (count + 1) s =
      (fun _ => (.failed e, s')) <$> watch.attempt latency (s'.behind.pauses - s.behind.pauses) := by
  unfold iterations Stopwatch.attempt
  rw [hwatch fun _ => iteration t (watch.refusal latency) memory n o options workload s, hfails]
  simp only [bind_map_left, map_bind, map_pure]

/-- **A benchmark whose pauses are refused fails** with the first window that an iteration demands, after one attempt
without a pause, and asks nothing of the store. -/
theorem run_refused {store : Store σ C} {fault : Fault} (hmemory : o.size ≤ memory) (hn : 0 < n)
    (options : ReadOptions) {workload : Workload} (hinside : ∀ read ∈ workload, 0 ≤ read.1 ∧ read.1 ≤ o.size)
    {start stop : Int} {more : List (Int × Int)}
    (hdemand : (iterationDemand memory o options workload).windows = (start, stop) :: more) (s : Asked σ) :
    ∃ last : Asked σ, last.requests = s.requests ∧
      ∀ {m : Type → Type} [Monad m] [LawfulMonad m] {watch : Stopwatch m} {latency : Float}, watch.Faithful →
        watch.refusal latency = some fault → ∀ count, 0 < count → ∀ name workloadName,
          run watch latency store.logged.transport memory n name workloadName o options workload count s =
            (fun _ => (.failed (.notOpened start stop o (.outside fault)), last)) <$> watch.attempt latency 0 := by
  obtain ⟨s', hiteration, hrequests, hpauses⟩ :=
    iteration_refused (P := fun last : Asked σ => last.requests = s.requests) store.logged.transport (fun _ h => h)
      fault hmemory hn options hinside (s := ⟨⟨s, 0⟩, {}, (), 0⟩) rfl
  rw [hdemand] at hiteration
  refine ⟨s'.behind.behind, hrequests, fun {m} _ _ watch latency hwatch hlatency count hcount name workloadName => ?_⟩
  cases count with
  | zero => exact absurd hcount (Nat.lt_irrefl 0)
  | succ count =>
    rw [← hlatency] at hiteration
    unfold run
    rw [iterations_fail hwatch latency hiteration, hpauses]
    simp only [bind_map_left, Outcome.map]
    rw [map_eq_pure_bind]

end Bench

end RangeRead
