import RangeRead.Proofs.Conservation

/-!
# What channels demand

What operations demand of a transport are the windows that they ask for and the bytes that they pull (`Demand`). Over a
reliable transport both follow from the outline of the channel, so that a run calls for just what its outline demands
(`run_yields`). A read asks for one window at most (`demands_windows_le`), and pulls what it is due at least
(`demand_read_ge`).
-/

namespace RangeRead

variable {σ H ρ : Type} {t : Transport σ H} {o : ObjectHandle} {data : ByteArray} {v : View σ H}

/-! ## Exact calls -/

/-- A call reports as many bytes as it writes. -/
def Call.IsExact (call : Call) : Prop := call.reported = call.bytes.size

/-- All calls of a log are exact. -/
def Logged.IsExact (s : Logged σ) : Prop := ∀ call ∈ s.calls, call.IsExact

/-- Exact calls report the bytes that they write. -/
theorem Call.totalReported_eq {calls : List Call} (h : ∀ call ∈ calls, call.IsExact) :
    totalReported calls = (written calls).size := by
  induction calls with
  | nil => rfl
  | cons call calls ih =>
    rw [List.forall_mem_cons] at h
    have hfirst : call.reported = call.bytes.size := h.1
    have hrest := ih h.2
    have htotal : totalReported (call :: calls) = call.reported + totalReported calls := by
      simp [totalReported]
    have hwritten : (written (call :: calls)).size = call.bytes.size + (written calls).size := ByteArray.size_append
    omega

theorem Logged.IsExact.call {s s' : Logged σ} (hs : s.IsExact) {call : Call} (hcalls : s'.calls = s.calls ++ [call])
    (hcall : call.IsExact) : s'.IsExact := by
  intro earlier hmem
  rw [hcalls, List.mem_append, List.mem_singleton] at hmem
  rcases hmem with hmem | rfl
  · exact hs earlier hmem
  · exact hcall

/-- All calls that a channel makes of a truthful transport are exact. -/
theorem Transport.Truthful.exact (ht : t.Truthful o data v) : t.logged.Honest o (v.logged.and Logged.IsExact) where
  note_idle notice hs := ⟨ht.logged.note_idle notice hs.1, hs.2⟩
  note_stands notice hs := ⟨ht.logged.note_stands notice hs.1, hs.2⟩
  opened hs hw heq := by
    obtain ⟨cursor, stop, hopened⟩ := ht.logged.opened hs.1 hw heq
    exact ⟨cursor, stop, hopened, hs.2.call (logged_openRange_ok heq).2.2 rfl⟩
  refused hs hw heq := ⟨ht.logged.refused hs.1 hw heq, hs.2.call (logged_openRange_error heq).2 rfl⟩
  sought hs heq := ⟨ht.logged.sought hs.1 heq, hs.2.call (logged_pin heq).2.2 rfl⟩
  limited hs heq := ⟨ht.logged.limited hs.1 heq, hs.2.call (logged_pin heq).2.2 rfl⟩
  notPinned hs heq := by
    obtain ⟨cursor, stop, hleft⟩ := ht.logged.notPinned hs.1 heq
    exact ⟨cursor, stop, hleft, hs.2.call (logged_pin heq).2.2 rfl⟩
  failed hs hw heq := by
    obtain ⟨cursor, stop, hleft⟩ := ht.logged.failed hs.1 hw heq
    exact ⟨cursor, stop, hleft, hs.2.call (logged_read heq).2.2 rfl⟩
  ended hs hw heq := by
    obtain rfl := ht.logged.writes_nothing hs.1 hw heq
    exact ⟨ht.logged.ended hs.1 hw heq, hs.2.call (logged_read heq).2.2 rfl⟩
  reports hs hw heq := ht.logged.reports hs.1 hw heq
  delivered hs hw heq := by
    obtain ⟨rfl, -⟩ := ht.logged.writes hs.1 hw heq
    exact ⟨ht.logged.delivered hs.1 hw heq, hs.2.call (logged_read heq).2.2 (Int.add_zero _)⟩
  close hs := ⟨ht.logged.close hs.1, hs.2.call (logged_close (Prod.eta _).symm).2 rfl⟩

/-! ## Demands -/

/-- What operations demand of a transport. -/
structure Demand where
  /-- The windows that are asked for, in order. -/
  windows : List (Int × Int)
  /-- How many bytes are pulled. -/
  pulled : Int
  deriving DecidableEq

/-- From the state `s` to the state `s'` the transport was called for what is demanded. -/
def Logged.Yields (s s' : Logged σ) (demand : Demand) : Prop :=
  ∃ made, s'.calls = s.calls ++ made ∧ Call.windows made = demand.windows ∧ Call.totalReported made = demand.pulled

theorem Logged.Yields.trans {s s₁ s' : Logged σ} {first rest : Demand} (h : s.Yields s₁ first)
    (h' : s₁.Yields s' rest) : s.Yields s' ⟨first.windows ++ rest.windows, first.pulled + rest.pulled⟩ := by
  obtain ⟨made, hcalls, hwindows, hpulled⟩ := h
  obtain ⟨made', hcalls', hwindows', hpulled'⟩ := h'
  refine ⟨made ++ made', ?_, ?_, ?_⟩
  · rw [hcalls', hcalls, List.append_assoc]
  · rw [Call.windows_append, hwindows, hwindows']
  · rw [Call.totalReported_append, hpulled, hpulled']

namespace Channel

/-- What an operation demands, with so much memory for new buffers: a read pulls what it skips first, and what it moves
the position by. -/
def demand (memory : Nat) (operation : Operation) (c : Channel Unit) : Demand where
  windows := (c.progress memory operation).2
  pulled :=
    if c.Engages memory operation then
      c.skipDistance.getD 0 + ((c.progress memory operation).1.position - c.position)
    else 0

/-- What operations demand, one after the other. -/
def demands (memory : Nat) : List Operation → Channel Unit → Demand
  | [], _ => ⟨[], 0⟩
  | operation :: operations, c =>
    let first := c.demand memory operation
    let rest := demands memory operations (c.progress memory operation).1
    ⟨first.windows ++ rest.windows, first.pulled + rest.pulled⟩

/-! ## Reads -/

/-- A read skips up to the position if it keeps the range. -/
theorem skipDistance_of_range {c : Channel H} {r : OpenRange H} (hr : c.range = some r) :
    c.skipDistance.getD 0 = if c.Keeps r then c.position - r.cursor else 0 := by
  unfold skipDistance
  rw [hr]
  dsimp only
  by_cases hskip : c.sizing.canSkip c.position r.cursor r.stop = true
  · have hkeeps : c.Keeps r := .inr hskip
    rw [if_pos hskip, if_pos hkeeps]
    rfl
  · rw [if_neg hskip]
    split
    · rename_i hkeeps
      have hat : c.position = r.cursor := hkeeps.resolve_right hskip
      rw [hat, Int.sub_self]
      rfl
    · rfl

theorem skipDistance_of_none {c : Channel H} (hr : c.range = none) : c.skipDistance.getD 0 = 0 := by
  unfold skipDistance
  rw [hr]
  rfl

theorem skipDistance_nonneg (c : Channel H) : 0 ≤ c.skipDistance.getD 0 := by
  unfold skipDistance
  split
  · exact Int.le_refl 0
  · split
    · rename_i hskip
      have hahead := (canSkip_ahead hskip).2.1
      dsimp only [Option.getD_some]
      omega
    · exact Int.le_refl 0

theorem skipDistance_outline (c : Channel H) : c.outline.skipDistance = c.skipDistance := by
  have hrange : c.outline.range = c.range.map (·.behind fun _ => ()) := rfl
  unfold skipDistance
  rw [hrange]
  cases c.range <;> rfl

/-- A read ends where all that it wants has been read, or the object ends. -/
theorem reading_position (c : Channel Unit) (want : Int) : (c.reading want).1.position = c.reach want := by
  unfold reading
  split
  · rfl
  · split
    · split
      · rfl
      · unfold afterOpening spending reach
        dsimp only
        omega
    · rfl

theorem demand_of_engages {memory : Nat} {operation : Operation} {c : Channel Unit} (h : c.Engages memory operation) :
    (c.demand memory operation).pulled = c.skipDistance.getD 0 + (c.reach (c.wants operation) - c.position) := by
  have hprogress : c.progress memory operation = c.reading (c.wants operation) :=
    (progress_of_read h.isRead h.1).trans (if_pos h)
  refine (if_pos h).trans ?_
  rw [hprogress, reading_position]

theorem demand_of_not_read {memory : Nat} {operation : Operation} (hread : operation.isRead = false)
    (c : Channel Unit) : (c.demand memory operation).pulled = 0 :=
  if_neg fun hengages => by
    rw [hengages.isRead] at hread
    cases hread

/-- What a read draws begins where the range stood that it keeps, or else at the position. -/
theorem Flows.written {want : Int} {c c' : Channel (Numbered H)} {s : Logged σ} {made : List Call}
    (h : Flows data c want c' made) (hp : Placed v.logged o c s) :
    Call.written made = part data (c.position - c.skipDistance.getD 0) (c.reach want) := by
  have hopening : ∀ number start stop reads,
      Call.written (Call.opening number start stop ++ reads) = Call.written reads := fun _ _ _ _ => by
    rw [Call.written_append]
    exact ByteArray.empty_append
  have hclosing : ∀ number answer calls, Call.written (.closed number answer :: calls) = Call.written calls :=
    fun _ _ _ => ByteArray.empty_append
  have hkept : ∀ {r}, c.range = some r → c.Keeps r → c.position - c.skipDistance.getD 0 = r.cursor := by
    intro r hr hkeeps
    rw [skipDistance_of_range hr, if_pos hkeeps]
    omega
  cases h with
  | opens hr _ hwritten =>
    rw [skipDistance_of_none hr, Int.sub_zero, hopening, hwritten]
  | leaves hr hleaves _ hwritten =>
    rw [skipDistance_of_range hr, if_neg hleaves, Int.sub_zero, hclosing, hopening, hwritten]
  | stays hr hkeeps _ _ hwritten => rw [hkept hr hkeeps, hwritten]
  | crosses hr hkeeps hreach _ hfirst _ hwritten =>
    have hle := (hp.range hr).2.le
    rw [hkept hr hkeeps, Call.written_append, hclosing, hopening, hfirst, hwritten,
      part_append_part data hle (Int.le_of_lt hreach)]

/-- What a read pulls is what it skips and what it moves the position by. -/
theorem Flows.pulled {want : Int} {c c' : Channel (Numbered H)} {s : Logged σ} {made : List Call}
    (h : Flows data c want c' made) (hp : Placed v.logged o c s) (hsize : data.size = o.size) (hwant : 0 ≤ want)
    (hexact : ∀ call ∈ made, call.IsExact) :
    Call.totalReported made = c.skipDistance.getD 0 + (c.reach want - c.position) := by
  have h0 := hp.nonneg
  have hle := hp.le_size
  have hstart : 0 ≤ c.position - c.skipDistance.getD 0 := by
    cases hr : c.range with
    | none =>
      rw [skipDistance_of_none hr]
      omega
    | some r =>
      have hcursor := (hp.range hr).2.nonneg
      rw [skipDistance_of_range hr]
      split <;> omega
  have hskip := c.skipDistance_nonneg
  have hreach : c.reach want = min (o.size : Int) (c.position + want) := by
    unfold reach
    rw [hp.object]
  rw [Call.totalReported_eq hexact, h.written hp, part_size hstart (by omega) (by omega)]
  omega

/-! ## Operations -/

variable {recorder : Option (Recorder ρ)} {memory n : Nat}

theorem Placed.of_and {W : σ → Prop} {c : Channel H} {s : σ} (h : Placed (v.and W) o c s) : Placed v o c s :=
  ⟨h.object, h.nonneg, h.le_size, (View.holds_and h.holds).1⟩

/-- What comes to no delivery reports nothing. -/
theorem perform_reported_of_not_engages {operation : Operation} {c : Channel (Numbered H)}
    (hengages : ¬c.Engages memory operation) (w : World (Logged σ) ρ) :
    Call.totalReported (c.perform ⟨t.logged, recorder, memory⟩ n operation w).2.2.transport.calls =
      Call.totalReported w.transport.calls := by
  by_cases hread : operation.isRead = true
  · rw [@perform_of_not_engages _ _ _ ⟨t.logged, recorder, memory⟩ n _ _ hread hengages]
  · exact perform_reported_of_not_read (eq_false_of_ne_true hread) c w

/-- An operation calls for what its outline demands. -/
theorem perform_yields (ht : t.Truthful o data v) (hsteady : t.Steady o v) (hsize : data.size = o.size)
    {operation : Operation} {c : Channel (Numbered H)} {w : World (Logged σ) ρ}
    (hp : Placed (v.logged.and Logged.IsExact) o c w.transport)
    (hends : (c.perform ⟨t.logged, recorder, memory⟩ n operation w).1 ≠ .stalled) :
    w.transport.Yields (c.perform ⟨t.logged, recorder, memory⟩ n operation w).2.2.transport
      (c.outline.demand memory operation) := by
  obtain ⟨-, _, made, hcalls, hwindows, -⟩ := perform_outline ht hsteady hp.of_and hends
  refine ⟨made, hcalls, hwindows, ?_⟩
  by_cases hengages : c.Engages memory operation
  · obtain ⟨made', hcalls', hflows⟩ := perform_flows ht hsteady hp.of_and hengages hends
    obtain rfl : made' = made := List.append_cancel_left (hcalls'.symm.trans hcalls)
    have hexact := (View.holds_and (@Invariant.perform _ _ _ ⟨t.logged, recorder, memory⟩ _
      (placed_invariant ht.exact) c w hp n operation).holds).2
    rw [hflows.pulled hp.of_and hsize (Int.natCast_nonneg _) fun call hmem => hexact call (by simp [hcalls, hmem]),
      ← skipDistance_outline c]
    exact (demand_of_engages (c := c.outline) hengages).symm
  · have hsame := @perform_reported_of_not_engages _ _ _ t recorder memory n _ _ hengages w
    rw [hcalls, Call.totalReported_append] at hsame
    have hnothing : (c.outline.demand memory operation).pulled = 0 :=
      if_neg (c := c.outline.Engages memory operation) hengages
    omega

/-- A run calls for what its outline demands. -/
theorem run_yields (ht : t.Reliable o data v) (haccepts : Source.Accepts ⟨t.logged, recorder, memory⟩)
    (hsize : data.size = o.size) (hn : 2 * o.size + 1 < n) (operations : List Operation) {c : Channel (Numbered H)}
    {w : World (Logged σ) ρ} (hp : Placed (v.logged.and Logged.IsExact) o c w.transport) :
    w.transport.Yields (run ⟨t.logged, recorder, memory⟩ n operations c w).2.2.transport
      (c.outline.demands memory operations) := by
  induction operations generalizing c w with
  | nil => exact ⟨[], (List.append_nil _).symm, rfl, rfl⟩
  | cons operation operations ih =>
    obtain ⟨hevent, houtline⟩ := event_eq ht haccepts hsize hn hp.of_and operation
    have hanswer : (c.perform ⟨t.logged, recorder, memory⟩ n operation w).1 =
        (c.outline.expected memory data operation).answer := congrArg Event.answer hevent
    have hends : (c.perform ⟨t.logged, recorder, memory⟩ n operation w).1 ≠ .stalled := by
      rw [hanswer]
      exact PlainFile.perform_ends _ _ _
    have hfirst := perform_yields ht.toTruthful ht.steady hsize hp hends
    have hp' := @Invariant.perform _ _ _ ⟨t.logged, recorder, memory⟩ _ (placed_invariant ht.toTruthful.exact) c w hp n
      operation
    have hrest := ih hp'
    rw [houtline] at hrest
    rw [run_cons]
    exact hfirst.trans hrest

/-! ## What operations leave -/

theorem reading_sameAs (c : Channel Unit) (want : Int) : SameAs (c.reading want).1 c := by
  unfold reading
  split
  · exact ⟨rfl, rfl, rfl⟩
  · split
    · split <;> exact ⟨rfl, rfl, rfl⟩
    · exact ⟨rfl, rfl, rfl⟩

/-- A read leaves all but the range, the position and the strategy. -/
theorem progress_read_sameAs (memory : Nat) (k : Option Int) {c : Channel Unit} (hopen : c.closed = false) :
    SameAs (c.progress memory (.read k)).1 c := by
  rw [progress_of_read rfl hopen]
  split
  · exact reading_sameAs c _
  · exact .refl c

theorem movedTo_sameAs (target : Int) (c : Channel H) : SameAs (c.movedTo target) c := by
  unfold movedTo
  split
  · exact ⟨rfl, rfl, rfl⟩
  · split <;> exact ⟨rfl, rfl, rfl⟩

theorem movedTo_position (target : Int) (c : Channel H) : (c.movedTo target).position = target := by
  unfold movedTo
  split
  · rfl
  · split
    · rename_i hat
      exact hat.symm
    · rfl

/-! ## Bounds -/

theorem reading_windows_le (c : Channel Unit) (want : Int) : (c.reading want).2.length ≤ 1 := by
  unfold reading
  split
  · exact Nat.le_refl 1
  · split
    · split
      · exact Nat.zero_le 1
      · exact Nat.le_refl 1
    · exact Nat.le_refl 1

/-- A read asks for one window at most, and other operations ask for none. -/
theorem demand_windows_le (memory : Nat) (operation : Operation) (c : Channel Unit) :
    (c.demand memory operation).windows.length ≤ if operation.isRead then 1 else 0 := by
  show (c.progress memory operation).2.length ≤ _
  by_cases hclosed : c.closed = true
  · rw [progress_of_closed hclosed]
    exact Nat.zero_le _
  have hopen : c.closed = false := eq_false_of_ne_true hclosed
  by_cases hread : operation.isRead = true
  · rw [progress_of_read hread hopen, if_pos hread]
    split
    · exact reading_windows_le c _
    · exact Nat.zero_le 1
  · rw [if_neg hread]
    cases operation with
    | read k => exact absurd rfl hread
    | readAll => exact absurd rfl hread
    | readInto buffer => exact absurd rfl hread
    | seek offset whence =>
      rw [progress_of_seek hopen]
      split <;> exact Nat.le_refl 0
    | tell =>
      rw [progress_of_tell hopen]
      exact Nat.le_refl 0
    | close =>
      rw [progress_of_close hopen]
      exact Nat.le_refl 0

/-- Operations ask for as many windows at most as there are reads among them. -/
theorem demands_windows_le (memory : Nat) (operations : List Operation) (c : Channel Unit) :
    (c.demands memory operations).windows.length ≤ operations.countP Operation.isRead := by
  induction operations generalizing c with
  | nil => exact Nat.le_refl 0
  | cons operation operations ih =>
    have hfirst := demand_windows_le memory operation c
    have hrest := ih (c.progress memory operation).1
    unfold demands
    rw [List.countP_cons, List.length_append]
    omega

/-- A read pulls what it is due at least, if there is memory for that. -/
theorem demand_read_ge {k : Option Int} {c : Channel Unit} (hopen : c.closed = false) (h0 : 0 ≤ c.position)
    (hle : c.position ≤ c.object.size) (hfits : due (c.object.size - c.position.toNat) k ≤ memory) :
    due (c.object.size - c.position.toNat) k ≤ (c.demand memory (.read k)).pulled := by
  have hasked := asked_eq h0 hle k
  have hwants : c.wants (.read k) = due (c.object.size - c.position.toNat) k := by
    show (c.asked k).toNat = _
    omega
  have hdue := due_le (c.object.size - c.position.toNat) k
  by_cases hengages : c.Engages memory (.read k)
  · have hskip := c.skipDistance_nonneg
    rw [demand_of_engages hengages, hwants]
    unfold reach
    omega
  · have hnothing : (c.demand memory (.read k)).pulled = 0 := if_neg hengages
    have hnone : ¬0 < c.wants (.read k) := fun hpos => by
      refine hengages ⟨hopen, hpos, ?_⟩
      show c.asked k ≤ memory
      omega
    omega

end Channel

end RangeRead
