import RangeRead.Proofs.Channel.Flows
import RangeRead.Proofs.Reading
import RangeRead.Proofs.Transport.Covers

/-!
# What operations come to

What an operation on a channel comes to is its answer, the windows that it asks for, and how reads count then
(`Event`). Over a reliable transport all this follows from the bytes of the object and from the outline of the channel,
which is all of it but the handle of its range (`perform_outline`, `event_eq`): neither the state of the transport, nor
the sizes of its answers, nor the recorder make a difference.
-/

namespace RangeRead

variable {σ H ρ : Type} {t : Transport σ H} {o : ObjectHandle} {data : ByteArray} {v : View σ H}

/-- A file never stalls. -/
theorem PlainFile.perform_ends (memory : Nat) (operation : Operation) (f : PlainFile) :
    (f.perform memory operation).1 ≠ .stalled := by
  have hread : ∀ k, (f.read memory k).1 ≠ .stalled := by
    intro k
    unfold read
    split
    · nofun
    · split <;> nofun
  cases operation with
  | read k => exact hread k
  | readAll => exact hread none
  | readInto buffer =>
    show (f.readInto buffer).1 ≠ .stalled
    unfold readInto
    split
    · nofun
    · split
      · nofun
      · split <;> nofun
  | seek offset whence =>
    show (f.seek offset whence).1 ≠ .stalled
    unfold seek
    split
    · nofun
    · split
      · nofun
      · split <;> nofun
  | tell =>
    unfold perform
    dsimp only
    split <;> nofun
  | close => nofun

/-- What an operation on a channel came to. -/
structure Event where
  answer : Outcome ReadError Answer
  /-- The windows that were asked for. -/
  windows : List (Int × Int)
  /-- How reads count afterwards. -/
  isRandom : Option Bool

/-- The windows that have been asked for since a state of the log. -/
theorem Logged.Makes.windows_drop {s s' : Logged σ} {windows : List (Int × Int)} {replies : List Reply}
    (h : s.Makes s' windows replies) : Call.windows (s'.calls.drop s.calls.length) = windows := by
  obtain ⟨made, hcalls, hwindows, -⟩ := h
  rw [hcalls, List.drop_left]
  exact hwindows

namespace Channel

instance (c : Channel H) (r : OpenRange H) : Decidable (c.Keeps r) := inferInstanceAs (Decidable (_ ∨ _))

instance (memory : Nat) (operation : Operation) (c : Channel H) : Decidable (c.Engages memory operation) :=
  inferInstanceAs (Decidable (_ ∧ _))

/-! ## Outlines -/

/-- The channel without the handle of its range. -/
def outline (c : Channel H) : Channel Unit := c.behind fun _ => ()

/-- What is behind a range makes no difference to the outline. -/
theorem behind_outline {K : Type} (handle : K → H) (c : Channel K) : (c.behind handle).outline = c.outline := by
  have hrange : (c.behind handle).outline.range = c.outline.range := by
    show (c.range.map (·.behind handle)).map (·.behind fun _ => ()) = c.range.map (·.behind fun _ => ())
    rw [Option.map_map]
    rfl
  exact congrArg (fun range => { c.outline with range := range }) hrange

/-- What a read of `want` bytes makes of a channel, and the windows that it asks for. -/
def reading (c : Channel Unit) (want : Int) : Channel Unit × List (Int × Int) :=
  match c.range with
  | none => (c.afterOpening want (), [(c.position, c.nextStop want)])
  | some r =>
    if c.Keeps r then
      if c.reach want ≤ r.stop then (c.afterStaying want () r.stop, [])
      else
        let left := c.position + want - r.stop
        ((c.spending r).afterOpening left (), [(r.stop, (c.spending r).nextStop left)])
    else ((c.leaving r).afterOpening want (), [(c.position, (c.leaving r).nextStop want)])

/-- The channel at another position. A simple one that moves drops its range. -/
def movedTo (target : Int) (c : Channel H) : Channel H :=
  match c.sizing with
  | .adaptive _ => { c with position := target }
  | .wholeObject => if target = c.position then c else { c with position := target, range := none }

/-- What an operation makes of a channel, and the windows that it asks for, with so much memory for new buffers. -/
def progress (memory : Nat) (operation : Operation) (c : Channel Unit) : Channel Unit × List (Int × Int) :=
  if c.closed then (c, [])
  else
    match operation with
    | .read _ | .readAll | .readInto _ =>
      if c.Engages memory operation then c.reading (c.wants operation) else (c, [])
    | .seek offset whence =>
      match resolveSeek offset whence c.position c.object.size with
      | .ok target => (c.movedTo target, [])
      | .error _ => (c, [])
    | .tell => (c, [])
    | .close => ({ c with range := none, closed := true }, [])

theorem progress_of_closed {memory : Nat} {operation : Operation} {c : Channel Unit} (h : c.closed = true) :
    c.progress memory operation = (c, []) := if_pos h

theorem progress_of_read {memory : Nat} {operation : Operation} (hread : operation.isRead = true) {c : Channel Unit}
    (hopen : c.closed = false) :
    c.progress memory operation = if c.Engages memory operation then c.reading (c.wants operation) else (c, []) := by
  refine (if_neg (by simp [hopen])).trans ?_
  cases operation with
  | read k => rfl
  | readAll => rfl
  | readInto buffer => rfl
  | seek offset whence => cases hread
  | tell => cases hread
  | close => cases hread

theorem progress_of_seek {memory : Nat} {offset whence : Int} {c : Channel Unit} (hopen : c.closed = false) :
    c.progress memory (.seek offset whence) =
      match resolveSeek offset whence c.position c.object.size with
      | .ok target => (c.movedTo target, [])
      | .error _ => (c, []) := if_neg (by simp [hopen])

theorem progress_seek_start {memory : Nat} {offset : Int} {c : Channel Unit} (hopen : c.closed = false)
    (h0 : 0 ≤ offset) (hle : offset ≤ c.object.size) : c.progress memory (.seek offset 0) = (c.movedTo offset, []) := by
  rw [progress_of_seek hopen, resolveSeek_start h0 hle]

theorem progress_of_tell {memory : Nat} {c : Channel Unit} (hopen : c.closed = false) :
    c.progress memory .tell = (c, []) := if_neg (by simp [hopen])

theorem progress_of_close {memory : Nat} {c : Channel Unit} (hopen : c.closed = false) :
    c.progress memory .close = ({ c with range := none, closed := true }, []) := if_neg (by simp [hopen])

/-- However a read comes by its bytes, what it makes of the channel follows from its outline. -/
theorem Flows.outline {want : Int} {c c' : Channel (Numbered H)} {made : List Call} (h : Flows data c want c' made) :
    (c'.outline, Call.windows made) = c.outline.reading want := by
  have hrange : c.outline.range = c.range.map (·.behind fun _ => ()) := rfl
  cases h with
  | opens hr hreads _ =>
    rw [Call.windows_append, Call.windows_opening, Call.windows_of_reads hreads]
    unfold reading
    rw [hrange, hr]
    rfl
  | @leaves r answer handle reads hr hleaves hreads _ =>
    have hwindows : Call.windows (.closed r.handle.number answer ::
        (Call.opening handle.number c.position ((c.leaving r).nextStop want) ++ reads)) =
          [(c.position, (c.leaving r).nextStop want)] := by
      show Call.windows (Call.opening handle.number c.position ((c.leaving r).nextStop want) ++ reads) = _
      rw [Call.windows_append, Call.windows_opening, Call.windows_of_reads hreads]
      rfl
    rw [hwindows]
    unfold reading
    rw [hrange, hr]
    exact (if_neg (c := c.outline.Keeps (r.behind fun _ => ())) hleaves).symm
  | @stays r handle _ hr hkeeps hreach hreads _ =>
    rw [Call.windows_of_reads hreads]
    unfold reading
    rw [hrange, hr]
    refine Eq.trans ?_ (if_pos (c := c.outline.Keeps (r.behind fun _ => ())) hkeeps).symm
    exact (if_pos (c := c.outline.reach want ≤ r.stop) hreach).symm
  | @crosses r old answer handle reads hr hkeeps hreach hold _ hreads _ =>
    have hwindows : Call.windows (old ++ .closed r.handle.number answer :: (Call.opening handle.number r.stop
        ((c.spending r).nextStop (c.position + want - r.stop)) ++ reads)) =
          [(r.stop, (c.spending r).nextStop (c.position + want - r.stop))] := by
      rw [Call.windows_append, Call.windows_of_reads hold]
      show Call.windows (Call.opening handle.number r.stop _ ++ reads) = _
      rw [Call.windows_append, Call.windows_opening, Call.windows_of_reads hreads]
      rfl
    rw [hwindows]
    unfold reading
    rw [hrange, hr]
    refine Eq.trans ?_ (if_pos (c := c.outline.Keeps (r.behind fun _ => ())) hkeeps).symm
    exact (if_neg (c := c.outline.reach want ≤ r.stop) (Int.not_le.mpr hreach)).symm

/-! ## Moving and closing -/

theorem dropRange_eq (t : Transport σ H) (c : Channel H) (s : σ) : (c.dropRange t s).1 = { c with range := none } := by
  cases hr : c.range with
  | none =>
    rw [dropRange_of_none hr, ← hr]
  | some r => rw [dropRange_of_range hr]

theorem moveTo_movedTo (t : Transport σ H) (target : Int) (c : Channel H) (s : σ) :
    (c.moveTo t target s).1 = c.movedTo target := by
  unfold moveTo movedTo
  cases hsizing : c.sizing with
  | adaptive strategy => rfl
  | wholeObject =>
    dsimp only
    split
    · rfl
    · dsimp only
      rw [dropRange_eq]
      simp only [hsizing]

theorem movedTo_outline (target : Int) (c : Channel H) : (c.movedTo target).outline = c.outline.movedTo target := by
  have hsizing : c.outline.sizing = c.sizing := rfl
  have hposition : c.outline.position = c.position := rfl
  unfold movedTo
  rw [hsizing, hposition]
  split
  · rfl
  · split <;> rfl

/-- Dropping the range asks for nothing. -/
theorem dropRange_makes (c : Channel (Numbered H)) (s : Logged σ) : s.Makes (c.dropRange t.logged s).2 [] [] := by
  cases hr : c.range with
  | none =>
    rw [dropRange_of_none hr]
    exact .of_eq rfl
  | some r =>
    rw [dropRange_of_range hr]
    exact Transport.logged_closeQuietly_makes _ _ _

theorem moveTo_makes (target : Int) (c : Channel (Numbered H)) (s : Logged σ) :
    s.Makes (c.moveTo t.logged target s).2 [] [] := by
  rcases moveTo_eq t.logged target c s with ⟨-, hsame⟩ | ⟨-, hdropped⟩
  · rw [hsame]
    exact .of_eq rfl
  · rw [hdropped]
    exact dropRange_makes c s

/-! ## Operations -/

/-- From the channel `c` and the state `s` the operation comes to `c'` and `s'` as its outline says. -/
def ProgressesTo (memory : Nat) (operation : Operation) (c : Channel (Numbered H)) (s : Logged σ)
    (c' : Channel (Numbered H)) (s' : Logged σ) : Prop :=
  c'.outline = (c.outline.progress memory operation).1 ∧
    ∃ replies, s.Makes s' (c.outline.progress memory operation).2 replies

/-- What changes nothing is as the outline says, if the outline says so. -/
theorem ProgressesTo.nothing {memory : Nat} {operation : Operation} {c : Channel (Numbered H)}
    (h : c.outline.progress memory operation = (c.outline, [])) (s : Logged σ) :
    ProgressesTo memory operation c s c s := by
  unfold ProgressesTo
  rw [h]
  exact ⟨rfl, [], .of_eq rfl⟩

variable {recorder : Option (Recorder ρ)} {memory n : Nat}

theorem seek_outline {offset whence : Int} {c : Channel (Numbered H)} (hopen : c.closed = false) (s : Logged σ) :
    ProgressesTo memory (.seek offset whence) c s (c.seek t.logged offset whence s).2.1
      (c.seek t.logged offset whence s).2.2 := by
  have hprogress : c.outline.progress memory (.seek offset whence) = _ := progress_of_seek hopen
  have hresolve : resolveSeek offset whence c.outline.position c.outline.object.size =
      resolveSeek offset whence c.position c.object.size := rfl
  rw [hresolve] at hprogress
  unfold seek
  rw [if_neg (by simp [hopen])]
  cases htarget : resolveSeek offset whence c.position c.object.size with
  | error e =>
    rw [htarget] at hprogress
    exact .nothing hprogress s
  | ok target =>
    rw [htarget] at hprogress
    unfold ProgressesTo
    rw [hprogress]
    dsimp only
    rw [moveTo_movedTo, movedTo_outline]
    exact ⟨rfl, [], moveTo_makes target c s⟩

theorem close_outline {c : Channel (Numbered H)} (hopen : c.closed = false) (s : Logged σ) :
    ProgressesTo memory .close c s (c.close t.logged s).1 (c.close t.logged s).2 := by
  unfold ProgressesTo
  rw [progress_of_close (c := c.outline) hopen, close_of_open hopen]
  dsimp only
  rw [dropRange_eq]
  exact ⟨rfl, [], dropRange_makes c s⟩

/-- A read that comes to a delivery and does not stall comes by its bytes as `Flows` says. -/
theorem perform_flows (ht : t.Truthful o data v) (hsteady : t.Steady o v) {operation : Operation}
    {c : Channel (Numbered H)} {w : World (Logged σ) ρ} (hp : Placed v.logged o c w.transport)
    (hengages : c.Engages memory operation)
    (hends : (c.perform ⟨t.logged, recorder, memory⟩ n operation w).1 ≠ .stalled) :
    ∃ made, (c.perform ⟨t.logged, recorder, memory⟩ n operation w).2.2.transport.calls = w.transport.calls ++ made ∧
      Flows data c (c.wants operation) (c.perform ⟨t.logged, recorder, memory⟩ n operation w).2.1 made := by
  obtain ⟨gap, hperform, hstalled⟩ :=
    @perform_of_engages _ _ _ ⟨t.logged, recorder, memory⟩ n _ _ hengages.isRead hengages w
  obtain ⟨hchannel, hstate⟩ :=
    @deliverAndReport_channel _ _ _ ⟨t.logged, recorder, memory⟩ n (c.wants operation) gap c w
  have hdelivers := delivers_deliver (t := t.logged) n (c.wants operation) gap c w.transport
  obtain ⟨-, made, hcalls, hflows⟩ := hdelivers.flows ht hsteady hp hengages.2.1 fun hstall =>
    hends (hstalled ((deliverAndReport_stalled gap c w).mpr hstall))
  rw [hperform, hchannel, hstate]
  exact ⟨made, hcalls, hflows⟩

/-- What an operation makes of a channel, and the windows that it asks for, follow from its outline. -/
theorem perform_outline (ht : t.Truthful o data v) (hsteady : t.Steady o v) {operation : Operation}
    {c : Channel (Numbered H)} {w : World (Logged σ) ρ} (hp : Placed v.logged o c w.transport)
    (hends : (c.perform ⟨t.logged, recorder, memory⟩ n operation w).1 ≠ .stalled) :
    ProgressesTo memory operation c w.transport (c.perform ⟨t.logged, recorder, memory⟩ n operation w).2.1
      (c.perform ⟨t.logged, recorder, memory⟩ n operation w).2.2.transport := by
  by_cases hclosed : c.closed = true
  · rw [perform_of_closed hclosed]
    exact .nothing (progress_of_closed hclosed) w.transport
  have hopen : c.closed = false := eq_false_of_ne_true hclosed
  have hreads : operation.isRead = true → ProgressesTo memory operation c w.transport
      (c.perform ⟨t.logged, recorder, memory⟩ n operation w).2.1
      (c.perform ⟨t.logged, recorder, memory⟩ n operation w).2.2.transport := by
    intro hread
    have hprogress : c.outline.progress memory operation = _ := progress_of_read hread hopen
    by_cases hengages : c.Engages memory operation
    · rw [if_pos (c := c.outline.Engages memory operation) hengages] at hprogress
      obtain ⟨made, hcalls, hflows⟩ := perform_flows ht hsteady hp hengages hends
      have hreading : c.outline.reading (c.outline.wants operation) = _ := hflows.outline.symm
      unfold ProgressesTo
      rw [hprogress, hreading]
      exact ⟨rfl, _, made, hcalls, rfl, rfl⟩
    · rw [if_neg (c := c.outline.Engages memory operation) hengages] at hprogress
      rw [@perform_of_not_engages _ _ _ ⟨t.logged, recorder, memory⟩ n _ _ hread hengages]
      exact .nothing hprogress w.transport
  cases operation with
  | read k => exact hreads rfl
  | readAll => exact hreads rfl
  | readInto buffer => exact hreads rfl
  | seek offset whence => exact seek_outline hopen w.transport
  | tell => exact .nothing (progress_of_tell hopen) w.transport
  | close => exact close_outline hopen w.transport

/-! ## Events -/

/-- What an operation on a channel comes to. -/
def event (src : Source (Logged σ) (Numbered H) ρ) (n : Nat) (operation : Operation) (c : Channel (Numbered H))
    (w : World (Logged σ) ρ) : Event where
  answer := (c.perform src n operation w).1
  windows := Call.windows ((c.perform src n operation w).2.2.transport.calls.drop w.transport.calls.length)
  isRandom := (c.perform src n operation w).2.1.isRandom

/-- What an operation is expected to come to on an object with these bytes. -/
def expected (memory : Nat) (data : ByteArray) (operation : Operation) (c : Channel Unit) : Event where
  answer := (PlainFile.perform memory operation ⟨data, c.position.toNat, c.closed⟩).1
  windows := (c.progress memory operation).2
  isRandom := (c.progress memory operation).1.isRandom

/-- Over a reliable transport every operation comes to what is expected from the outline of the channel. -/
theorem event_eq (ht : t.Reliable o data v) (haccepts : Source.Accepts ⟨t.logged, recorder, memory⟩)
    (hsize : data.size = o.size) (hn : 2 * o.size + 1 < n) {c : Channel (Numbered H)} {w : World (Logged σ) ρ}
    (hp : Placed v.logged o c w.transport) (operation : Operation) :
    c.event ⟨t.logged, recorder, memory⟩ n operation w = c.outline.expected memory data operation ∧
      (c.perform ⟨t.logged, recorder, memory⟩ n operation w).2.1.outline =
        (c.outline.progress memory operation).1 := by
  have hmirrors : Mirrors data c ⟨data, c.position.toNat, c.closed⟩ :=
    ⟨rfl, (Int.toNat_of_nonneg hp.nonneg).symm, rfl⟩
  have hanswer : (c.perform ⟨t.logged, recorder, memory⟩ n operation w).1 =
      (PlainFile.perform memory operation ⟨data, c.position.toNat, c.closed⟩).1 :=
    (perform_mirrors ht.logged haccepts hsize hn hp hmirrors operation).1
  have hends : (c.perform ⟨t.logged, recorder, memory⟩ n operation w).1 ≠ .stalled := by
    rw [hanswer]
    exact PlainFile.perform_ends _ _ _
  obtain ⟨houtline, replies, hmakes⟩ := perform_outline ht.toTruthful ht.steady hp hends
  refine ⟨?_, houtline⟩
  have hrandom : (c.perform ⟨t.logged, recorder, memory⟩ n operation w).2.1.isRandom =
      (c.outline.progress memory operation).1.isRandom := congrArg isRandom houtline
  unfold event expected
  rw [hanswer, hmakes.windows_drop, hrandom]
  rfl

end Channel

end RangeRead
