import Mathlib.Algebra.Ring.Int.Defs
import Mathlib.Data.List.DropRight
import RangeRead.Proofs.Channel.Outline
import RangeRead.Proofs.Reporting
import RangeRead.Proofs.Store.Memory

/-!
# Channels that share a store

Any number of channels, on the same object or on others, share the transport over one store and the metrics, and their
operations follow each other in any order, with resets of the metrics in between (`Shared.run`). If the store serves the
objects, each channel answers, asks for windows and counts its reads as if it were alone (`shared_as_alone`), as each of
its operations comes to what is expected from its outline. What the metrics have is what the reads of all the channels
have returned since the latest reset (`perform_counts`).
-/

namespace RangeRead

variable {ι σ C H ρ : Type} {o : ObjectHandle} {data : ByteArray}

/-! ## What is counted -/

/-- How many bytes an operation that is answered so has returned. -/
def bytesReturned : Outcome ReadError Answer → Int
  | .done (.bytes bytes) => bytes.size
  | .done (.filled (.bytes n) _) => n
  | .done (.filled .endOfStream _) | .done (.position _) | .done .closed | .failed _ | .stalled => 0

/-- How many bytes an operation returned. -/
def Event.returned (event : Event) : Int := bytesReturned event.answer

/-- The metrics after `n` bytes have been returned, perhaps none. -/
def ReadMetrics.count (m : ReadMetrics) (n : Int) : ReadMetrics := if 0 < n then m.add n else m

namespace Channel

theorem eq_done_of_map {α β : Type} {a : Outcome ReadError α} {f : α → β} {y : β} (h : a.map f = .done y) :
    ∃ x, a = .done x ∧ f x = y := by
  cases a with
  | done x =>
    cases h
    exact ⟨x, rfl, rfl⟩
  | failed e => cases h
  | stalled => cases h

theorem report_metrics (t : Transport σ H) (memory : Nat) (got : Filling) (m : ReadMetrics) :
    report ⟨t, some ReadMetrics.recorder, memory⟩ got m = (.done got, m.count got.count) := by
  unfold report ReadMetrics.count
  dsimp only
  split
  · rename_i h
    rw [if_neg (Int.not_lt.mpr h)]
  · rename_i h
    rw [if_pos (Int.not_le.mp h)]
    rfl

section Counts

variable {src : Source σ H ρ} {v : View σ H} {n : Nat}

/-- A new buffer is delivered up to what is counted. -/
theorem size_delivered {want : Nat} {got : Filling} (h0 : 0 ≤ got.count) (hle : got.count ≤ want) :
    ((delivered want got).size : Int) = got.count := by
  have hstop : min want (fillOffset want got.count) = got.count.toNat := by
    unfold fillOffset
    rw [if_pos h0]
    omega
  unfold delivered Filling.firstBytes
  rw [if_neg (by omega), hstop]
  split
  · have hblank : (blank got.front.size got.count.toNat).size = got.count.toNat - got.front.size :=
      Array.size_replicate
    rw [ByteArray.size_append, hblank]
    omega
  · rw [ByteArray.size_extract]
    omega

/-- A read that comes to its end has moved the position by the bytes that it returned. -/
theorem perform_returned (ht : src.transport.Honest o v) {operation : Operation}
    (hread : operation.isRead = true) {c : Channel H} {w : World σ ρ} (hp : Placed v o c w.transport) {answer : Answer}
    (h : (c.perform src n operation w).1 = .done answer) :
    0 ≤ bytesReturned (.done answer) ∧
      (c.perform src n operation w).2.1.position = c.position + bytesReturned (.done answer) := by
  have hcounted : ∀ {want gap got}, (deliverAndReport src n want gap c w).1 = .done got →
      0 ≤ got.count ∧ got.count ≤ want ∧
        (deliverAndReport src n want gap c w).2.1.position = c.position + got.count := by
    intro want gap got hdone
    have hdelivers := Delivers.of_eq (deliver_of_report (Prod.ext hdone rfl))
    obtain ⟨h0, hle⟩ := hdelivers.count_le ht hp
    exact ⟨h0, hle, hdelivers.position⟩
  have hreads : ∀ k, ((c.read src n k w).1.map Answer.bytes) = .done answer → 0 ≤ bytesReturned (.done answer) ∧
      (c.read src n k w).2.1.position = c.position + bytesReturned (.done answer) := by
    intro k hdone
    obtain ⟨bytes, hbytes, rfl⟩ := eq_done_of_map hdone
    refine ⟨Int.natCast_nonneg _, ?_⟩
    unfold read at hbytes ⊢
    split at hbytes
    · cases hbytes
    · rename_i hopen
      rw [if_neg hopen]
      dsimp only at hbytes ⊢
      split at hbytes
      · rename_i hnone
        rw [if_pos hnone]
        cases hbytes
        exact (Int.add_zero _).symm
      · rename_i hsome
        rw [if_neg hsome]
        split at hbytes
        · cases hbytes
        · obtain ⟨got, hgot, rfl⟩ := eq_done_of_map hbytes
          obtain ⟨h0, hle, hposition⟩ := hcounted hgot
          show _ = c.position + ((delivered _ got).size : Int)
          rw [size_delivered h0 hle]
          exact hposition
  cases operation with
  | read k => exact hreads k h
  | readAll => exact hreads none h
  | readInto buffer =>
    obtain ⟨⟨count, buffer'⟩, hfilled, rfl⟩ := eq_done_of_map h
    have hread : (c.readInto src n buffer w).1 = .done (count, buffer') := hfilled
    show _ ∧ (c.readInto src n buffer w).2.1.position = _
    unfold readInto at hread ⊢
    split at hread
    · cases hread
    · rename_i hopen
      rw [if_neg hopen]
      split at hread
      · rename_i hempty
        rw [if_pos hempty]
        cases hread
        exact ⟨Int.le_refl 0, (Int.add_zero _).symm⟩
      · rename_i hsome
        rw [if_neg hsome]
        obtain ⟨got, hgot, hcount⟩ := eq_done_of_map hread
        cases hcount
        obtain ⟨h0, -, hposition⟩ := hcounted hgot
        have hreturned : bytesReturned (.done (.filled got.readCount (got.firstBytes buffer.extract buffer.size))) =
            got.count := by
          unfold Filling.readCount
          split
          · rename_i hnone
            exact hnone.symm
          · rfl
        rw [hreturned]
        exact ⟨h0, hposition⟩
  | seek offset whence => cases hread
  | tell => cases hread
  | close => cases hread

/-- Only reads return bytes. -/
theorem bytesReturned_of_not_read {operation : Operation} (hread : operation.isRead = false) (c : Channel H)
    (w : World σ ρ) : bytesReturned (c.perform src n operation w).1 = 0 := by
  have hposition : ∀ a : Except ReadError Int, bytesReturned ((Outcome.ofExcept a).map .position) = 0 := by
    intro a
    cases a with
    | ok target => rfl
    | error e => rfl
  cases operation with
  | read k => cases hread
  | readAll => cases hread
  | readInto buffer => cases hread
  | seek offset whence => exact hposition _
  | tell => exact hposition _
  | close => rfl

end Counts

/-- The metrics count the bytes that an operation returns. -/
theorem perform_counts {t : Transport σ H} {v : View σ H} (ht : t.Truthful o data v) (memory n : Nat)
    (operation : Operation) {c : Channel H} {w : World σ ReadMetrics} (hp : Placed v o c w.transport) :
    let after := c.perform ⟨t, some ReadMetrics.recorder, memory⟩ n operation w
    0 ≤ bytesReturned after.1 ∧ after.2.2.recorder = w.recorder.count (bytesReturned after.1) := by
  dsimp only
  by_cases hread : operation.isRead = true
  · have hreads := @perform_readsTo _ _ _ ⟨t, some ReadMetrics.recorder, memory⟩ n operation hread c w
    have hreturned : ∀ answer, (c.perform ⟨t, some ReadMetrics.recorder, memory⟩ n operation w).1 = .done answer →
        0 ≤ bytesReturned (.done answer) ∧
          (c.perform ⟨t, some ReadMetrics.recorder, memory⟩ n operation w).2.1.position =
            c.position + bytesReturned (.done answer) := fun _ hdone => perform_returned ht.toHonest hread hp hdone
    generalize c.perform ⟨t, some ReadMetrics.recorder, memory⟩ n operation w = after at hreads hreturned ⊢
    obtain ⟨a, c', w'⟩ := after
    cases hreads with
    | nothing hends =>
      cases a with
      | done answer =>
        obtain ⟨hnonneg, hposition⟩ := hreturned answer rfl
        have hnothing : bytesReturned (.done answer) = 0 :=
          Int.add_left_cancel (hposition.symm.trans (Int.add_zero _).symm)
        refine ⟨hnonneg, (if_neg ?_).symm⟩
        rw [hnothing]
        exact Int.lt_irrefl 0
      | failed e => exact ⟨Int.le_refl 0, rfl⟩
      | stalled => exact absurd rfl hends
    | fails _ _ => exact ⟨Int.le_refl 0, rfl⟩
    | stalls _ _ => exact ⟨Int.le_refl 0, rfl⟩
    | @delivers gap got _ _ r answer _ hdeliver hreport =>
      obtain ⟨hnonneg, hposition⟩ := hreturned answer rfl
      have hmoved := (Delivers.of_eq hdeliver).position
      rw [report_metrics] at hreport
      cases hreport
      have hcount : got.count = bytesReturned (.done answer) := Int.add_left_cancel (hmoved.symm.trans hposition)
      exact ⟨hnonneg, congrArg w.recorder.count hcount⟩
    | refused _ _ hreport =>
      rw [report_metrics] at hreport
      cases hreport
  · have hother : operation.isRead = false := eq_false_of_ne_true hread
    rw [bytesReturned_of_not_read hother]
    refine ⟨Int.le_refl 0, ?_⟩
    cases operation with
    | read k => cases hother
    | readAll => cases hother
    | readInto buffer => cases hother
    | seek offset whence => rfl
    | tell => rfl
    | close => rfl

/-! ## Channels alone -/

/-- What operations on a channel come to, one after the other. -/
def events (src : Source (Logged σ) (Numbered H) ρ) (n : Nat) :
    List Operation → Channel (Numbered H) → World (Logged σ) ρ → List Event
  | [], _, _ => []
  | operation :: operations, c, w =>
    c.event src n operation w ::
      events src n operations (c.perform src n operation w).2.1 (c.perform src n operation w).2.2

/-- What operations are expected to come to on an object with these bytes. -/
def expectations (memory : Nat) (data : ByteArray) : List Operation → Channel Unit → List Event
  | [], _ => []
  | operation :: operations, c =>
    c.expected memory data operation :: expectations memory data operations (c.progress memory operation).1

/-- What is expected never stalls. -/
theorem expectations_end (memory : Nat) (data : ByteArray) (operations : List Operation) (c : Channel Unit) :
    ∀ event ∈ expectations memory data operations c, event.answer ≠ .stalled := by
  induction operations generalizing c with
  | nil =>
    intro event h
    cases h
  | cons operation operations ih =>
    exact List.forall_mem_cons.mpr ⟨PlainFile.perform_ends _ _ _, ih _⟩

/-- A channel that is alone over a reliable transport comes to what is expected. -/
theorem events_eq {t : Transport σ H} {v : View σ H} {recorder : Option (Recorder ρ)} {memory n : Nat}
    (ht : t.Reliable o data v) (haccepts : Source.Accepts ⟨t.logged, recorder, memory⟩) (hsize : data.size = o.size)
    (hn : 2 * o.size + 1 < n) (operations : List Operation) {c : Channel (Numbered H)} {w : World (Logged σ) ρ}
    (hp : Placed v.logged o c w.transport) :
    c.events ⟨t.logged, recorder, memory⟩ n operations w = expectations memory data operations c.outline := by
  induction operations generalizing c w with
  | nil => rfl
  | cons operation operations ih =>
    obtain ⟨hevent, houtline⟩ := event_eq ht haccepts hsize hn hp operation
    have hp' : Placed v.logged o (c.perform ⟨t.logged, recorder, memory⟩ n operation w).2.1
        (c.perform ⟨t.logged, recorder, memory⟩ n operation w).2.2.transport :=
      (placed_invariant ht.logged.toHonest).perform hp n operation
    unfold events expectations
    rw [hevent, ih hp', houtline]

end Channel

/-! ## Channels together -/

/-- What is done with channels that share a transport and the metrics. -/
inductive SharedUse (ι : Type)
  /-- One of the channels performs an operation. -/
  | perform (channel : ι) (operation : Operation)
  /-- The metrics are reset. -/
  | reset

/-- Channels, and the state of what they share. -/
structure Shared (ι σ H : Type) where
  channels : ι → Channel (Numbered H)
  world : World (Logged σ) ReadMetrics

/-- What the metrics have. -/
def Shared.metrics (shared : Shared ι σ H) : ReadMetrics := shared.world.recorder

/-- The operations of one channel among all that is done. -/
def SharedUse.operationsOn [DecidableEq ι] (i : ι) (uses : List (SharedUse ι)) : List Operation :=
  uses.filterMap fun
    | .perform j operation => if j = i then some operation else none
    | .reset => none

theorem SharedUse.operationsOn_self [DecidableEq ι] (i : ι) (operation : Operation) (uses : List (SharedUse ι)) :
    operationsOn i (.perform i operation :: uses) = operation :: operationsOn i uses :=
  List.filterMap_cons_some (if_pos rfl)

theorem SharedUse.operationsOn_other [DecidableEq ι] {i j : ι} (h : j ≠ i) (operation : Operation)
    (uses : List (SharedUse ι)) : operationsOn i (.perform j operation :: uses) = operationsOn i uses :=
  List.filterMap_cons_none (if_neg h)

/-- What happened is what an operation on a channel came to, or `none` where the metrics were reset. -/
abbrev Happening (ι : Type) := Option (ι × Event)

namespace Happening

/-- What the operations of one channel came to, among all that happened. -/
def eventsOn [DecidableEq ι] (i : ι) (happened : List (Happening ι)) : List Event :=
  happened.filterMap fun
    | some (j, event) => if j = i then some event else none
    | none => none

theorem eventsOn_self [DecidableEq ι] (i : ι) (event : Event) (happened : List (Happening ι)) :
    eventsOn i (some (i, event) :: happened) = event :: eventsOn i happened :=
  List.filterMap_cons_some (if_pos rfl)

theorem eventsOn_other [DecidableEq ι] {i j : ι} (h : j ≠ i) (event : Event) (happened : List (Happening ι)) :
    eventsOn i (some (j, event) :: happened) = eventsOn i happened :=
  List.filterMap_cons_none (if_neg h)

/-- What operations came to since the metrics were last reset. -/
def sinceReset (happened : List (Happening ι)) : List Event :=
  (happened.rtakeWhile Option.isSome).filterMap (·.map Prod.snd)

theorem sinceReset_perform (happened : List (Happening ι)) (i : ι) (event : Event) :
    sinceReset (happened ++ [some (i, event)]) = sinceReset happened ++ [event] := by
  unfold sinceReset
  rw [List.rtakeWhile_concat_pos _ _ _ rfl, List.filterMap_append]
  rfl

theorem sinceReset_reset (happened : List (Happening ι)) : sinceReset (happened ++ [none]) = [] := by
  unfold sinceReset
  rw [List.rtakeWhile_concat_neg _ _ _ (by simp)]
  rfl

end Happening

namespace ReadMetrics

/-- The metrics after one thing has happened. -/
def follow (m : ReadMetrics) : Happening ι → ReadMetrics
  | some (_, event) => m.count event.returned
  | none => m.reset

/-- The metrics of events: what they returned, and how many returned anything. -/
def ofEvents (events : List Event) : ReadMetrics where
  bytesRead := (events.map Event.returned).sum
  readCalls := events.countP (0 < ·.returned)

theorem recorder_accepts {t : Transport σ H} {memory : Nat} :
    Source.Accepts ⟨t, some recorder, memory⟩ := by
  intro recorder hsome n m
  cases hsome
  exact ⟨(), m.add n, rfl⟩

theorem count_ofEvents (events : List Event) {event : Event} (h : 0 ≤ event.returned) :
    (ofEvents events).count event.returned = ofEvents (events ++ [event]) := by
  unfold count ofEvents
  rw [List.map_append, List.sum_append, List.countP_append]
  split
  · rename_i hpos
    simp [add, hpos]
  · rename_i hpos
    have hnothing : event.returned = 0 := by omega
    simp [hnothing]

/-- The metrics that follow what happens are those of the events since the latest reset. -/
theorem foldl_follow (happened : List (Happening ι))
    (h : ∀ i event, some (i, event) ∈ happened → 0 ≤ event.returned) :
    happened.foldl follow {} = ofEvents (Happening.sinceReset happened) := by
  induction happened using List.reverseRecOn with
  | nil => rfl
  | append_singleton happened last ih =>
    rw [List.foldl_append, ih fun i event hmem => h i event (List.mem_append_left _ hmem)]
    cases last with
    | none =>
      rw [Happening.sinceReset_reset]
      rfl
    | some happening =>
      obtain ⟨i, event⟩ := happening
      rw [Happening.sinceReset_perform]
      exact count_ofEvents _ (h i event (List.mem_append_right _ (List.mem_singleton_self _)))

end ReadMetrics

namespace Shared

variable [DecidableEq ι]

/-- Does one thing. -/
def use (src : Source (Logged σ) (Numbered H) ReadMetrics) (n : Nat) (shared : Shared ι σ H) :
    SharedUse ι → Happening ι × Shared ι σ H
  | .perform i operation =>
    let (_, c, w) := (shared.channels i).perform src n operation shared.world
    (some (i, (shared.channels i).event src n operation shared.world), ⟨Function.update shared.channels i c, w⟩)
  | .reset => (none, { shared with world := { shared.world with recorder := shared.world.recorder.reset } })

/-- Does one thing after the other. -/
def run (src : Source (Logged σ) (Numbered H) ReadMetrics) (n : Nat) :
    List (SharedUse ι) → Shared ι σ H → List (Happening ι) × Shared ι σ H
  | [], shared => ([], shared)
  | use :: uses, shared =>
    let (happened, shared) := shared.use src n use
    let (more, shared) := run src n uses shared
    (happened :: more, shared)

theorem run_cons {src : Source (Logged σ) (Numbered H) ReadMetrics} {n : Nat} (use : SharedUse ι)
    (uses : List (SharedUse ι)) (shared : Shared ι σ H) :
    shared.run src n (use :: uses) =
      ((shared.use src n use).1 :: ((shared.use src n use).2.run src n uses).1,
        ((shared.use src n use).2.run src n uses).2) := rfl

/-! ## Channels over one store -/

/-- The channels over a store that serves their objects stand where they hold to stand. -/
def Placed (store : Store σ C) (object : ι → ObjectHandle) (data : ι → ByteArray) (I : σ → Prop)
    (shared : Shared ι σ (StoreRange C)) : Prop :=
  ∀ i, Channel.Placed (store.view (object i) (data i) I).logged (object i) (shared.channels i) shared.world.transport

end Shared

/-- Whether a channel over a store stands where it holds to stand does not depend on the store's state, as long as it
serves. -/
theorem Channel.Placed.over {store : Store σ C} {I : σ → Prop} {c : Channel (Numbered (StoreRange C))}
    {s s' : Logged σ} (hp : Placed (store.view o data I).logged o c s) (hs : I s'.behind) :
    Placed (store.view o data I).logged o c s' := by
  obtain ⟨hobject, hnonneg, hle, hholds⟩ := hp
  refine ⟨hobject, hnonneg, hle, ?_⟩
  cases hr : c.range with
  | none => exact hs
  | some r =>
    rw [hr] at hholds
    exact ⟨⟨hs, hholds.1.2⟩, hholds.2⟩

theorem Channel.Placed.serves {store : Store σ C} {I : σ → Prop} {c : Channel (Numbered (StoreRange C))}
    {s : Logged σ} (hp : Placed (store.view o data I).logged o c s) : I s.behind := by
  have hholds := hp.holds
  cases hr : c.range with
  | none =>
    rw [hr] at hholds
    exact hholds
  | some r =>
    rw [hr] at hholds
    exact hholds.1.1

namespace Shared

variable [DecidableEq ι] {store : Store σ C} {I : σ → Prop} {object : ι → ObjectHandle} {data : ι → ByteArray}
  (hserves : ∀ i, store.Serves (object i) (data i) I) (hsize : ∀ i, (data i).size = (object i).size) {memory n : Nat}
include hserves hsize

variable (memory n) in
/-- The channels stay so, whichever of them does something. -/
theorem use_placed {shared : Shared ι σ (StoreRange C)} (hp : shared.Placed store object data I) (use : SharedUse ι) :
    (shared.use ⟨store.transport.logged, some ReadMetrics.recorder, memory⟩ n use).2.Placed store object data I := by
  cases use with
  | reset => exact hp
  | perform j operation =>
    have ht := Store.transport_reliable (hserves j) (hsize j)
    have hafter := @Channel.Invariant.perform _ _ _ ⟨store.transport.logged, some ReadMetrics.recorder, memory⟩ _
      (Channel.placed_invariant ht.logged.toHonest) _ _ (hp j) n operation
    intro i
    by_cases hi : i = j
    · subst hi
      show Channel.Placed _ _ (Function.update shared.channels i _ i) _
      rw [Function.update_self]
      exact hafter
    · show Channel.Placed _ _ (Function.update shared.channels j _ i) _
      rw [Function.update_of_ne hi]
      exact (hp i).over hafter.serves

variable (memory) in
/-- Each channel comes to what is expected of it alone. -/
theorem run_eventsOn (hn : ∀ i, 2 * (object i).size + 1 < n) (uses : List (SharedUse ι))
    {shared : Shared ι σ (StoreRange C)} (hp : shared.Placed store object data I) (i : ι) :
    Happening.eventsOn i
        (shared.run ⟨store.transport.logged, some ReadMetrics.recorder, memory⟩ n uses).1 =
      Channel.expectations memory (data i) (SharedUse.operationsOn i uses) (shared.channels i).outline := by
  induction uses generalizing shared with
  | nil => rfl
  | cons use uses ih =>
    have hrest := ih (use_placed hserves hsize memory n hp use)
    rw [run_cons]
    cases use with
    | reset => exact hrest
    | perform j operation =>
      have haccepts : Source.Accepts ⟨store.transport.logged, some ReadMetrics.recorder, memory⟩ :=
        ReadMetrics.recorder_accepts
      obtain ⟨hevent, houtline⟩ := Channel.event_eq (Store.transport_reliable (hserves j) (hsize j)) haccepts
        (hsize j) (hn j) (hp j) operation
      unfold use at hrest ⊢
      dsimp only at hrest ⊢
      by_cases hj : j = i
      · subst hj
        rw [Function.update_self, houtline] at hrest
        rw [Happening.eventsOn_self, SharedUse.operationsOn_self, hevent]
        exact congrArg _ hrest
      · rw [Function.update_of_ne (Ne.symm hj)] at hrest
        rw [Happening.eventsOn_other hj, SharedUse.operationsOn_other hj]
        exact hrest

variable (memory n) in
/-- The metrics follow what happens. -/
theorem run_follow (uses : List (SharedUse ι)) {shared : Shared ι σ (StoreRange C)}
    (hp : shared.Placed store object data I) :
    let after := shared.run ⟨store.transport.logged, some ReadMetrics.recorder, memory⟩ n uses
    after.2.metrics = after.1.foldl ReadMetrics.follow shared.metrics ∧
      ∀ i event, some (i, event) ∈ after.1 → 0 ≤ event.returned := by
  induction uses generalizing shared with
  | nil => exact ⟨rfl, nofun⟩
  | cons use uses ih =>
    obtain ⟨hmetrics, hnonneg⟩ := ih (use_placed hserves hsize memory n hp use)
    rw [run_cons]
    cases use with
    | reset =>
      refine ⟨hmetrics, fun i event hmem => ?_⟩
      rcases List.mem_cons.mp hmem with hreset | hmem
      · cases hreset
      · exact hnonneg i event hmem
    | perform j operation =>
      have ht := (Store.transport_reliable (hserves j) (hsize j)).toTruthful.logged
      obtain ⟨hreturned, hcounted⟩ := Channel.perform_counts ht memory n operation (hp j)
      refine ⟨?_, fun i event hmem => ?_⟩
      · rw [List.foldl_cons]
        refine hmetrics.trans (congrArg (fun m => List.foldl _ m _) ?_)
        exact hcounted
      · rcases List.mem_cons.mp hmem with hnow | hmem
        · cases hnow
          exact hreturned
        · exact hnonneg i event hmem

variable (memory) in
/-- **Channels that share a transport and the metrics do not notice each other.** -/
theorem shared_as_alone (hn : ∀ i, 2 * (object i).size + 1 < n)
    {channels : ι → Channel (Numbered (StoreRange C))} (hnew : ∀ i, (channels i).IsNew)
    (hobject : ∀ i, (channels i).object = object i) {s : σ} (hs : I s) (uses : List (SharedUse ι)) :
    let src : Source (Logged σ) (Numbered (StoreRange C)) ReadMetrics :=
      ⟨store.transport.logged, some ReadMetrics.recorder, memory⟩
    let after := run src n uses ⟨channels, ⟨.start s, {}⟩⟩
    (∀ i, (∀ event ∈ Happening.eventsOn i after.1, event.answer ≠ .stalled) ∧ ∀ s', I s' →
      Happening.eventsOn i after.1 =
        (channels i).events src n (SharedUse.operationsOn i uses) ⟨.start s', {}⟩) ∧
    after.2.metrics = ReadMetrics.ofEvents (Happening.sinceReset after.1) := by
  intro src after
  have hplaced : ∀ {s'}, I s' → (Shared.mk channels ⟨.start s', {}⟩).Placed store object data I := fun hs' i =>
    (hnew i).placed (hobject i) hs'
  refine ⟨fun i => ?_, ?_⟩
  · have hevents := run_eventsOn hserves hsize memory hn uses (hplaced hs) i
    refine ⟨?_, fun s' hs' => ?_⟩
    · rw [hevents]
      exact Channel.expectations_end _ _ _ _
    · rw [hevents]
      have ht := Store.transport_reliable (hserves i) (hsize i)
      exact (Channel.events_eq ht ReadMetrics.recorder_accepts (hsize i) (hn i) _ (hplaced hs' i)).symm
  · obtain ⟨hmetrics, hnonneg⟩ := run_follow hserves hsize memory n uses (hplaced hs)
    exact hmetrics.trans (ReadMetrics.foldl_follow _ hnonneg)

omit hserves hsize in
/-- So it is for an adaptive and a simple channel that read two objects in turns. Since the reset three bytes have been
returned by two reads: those that were skipped and the read that told the end do not count. -/
theorem shared_as_alone_in_turns :
    let src : Source (Logged Memory.Objects) (Numbered (StoreRange Memory.Stream)) ReadMetrics :=
      ⟨(Memory.store 1).transport.logged, some ReadMetrics.recorder, 8⟩
    let object : Bool → ObjectHandle := fun i =>
      if i then { path := "one", size := 6 } else { path := "two", size := 2 }
    let channels : Bool → Channel (Numbered (StoreRange Memory.Stream)) := fun i =>
      if i then .adaptive (object i) { accessPattern := .random, minRangeRequestSize := 4 }
      else .simple (object i) .standard
    let objects : Memory.Objects := [("one", ⟨#[1, 2, 3, 4, 5, 6]⟩), ("two", ⟨#[7, 8]⟩)]
    let uses : List (SharedUse Bool) := [.perform true (.read (some 1)), .perform false .readAll, .reset,
      .perform true (.seek 2 0), .perform false (.readInto ⟨#[0]⟩), .perform true (.read (some 1)),
      .perform false (.seek 0 0), .perform true (.readInto ⟨#[0, 0]⟩)]
    let after := run src 14 uses ⟨channels, ⟨.start objects, {}⟩⟩
    after.2.metrics = ⟨3, 2⟩ ∧
      (Happening.eventsOn true after.1).map (·.windows) = [[(0, 4)], [], [], [(4, 6)]] ∧
      (∀ i, Happening.eventsOn i after.1 =
        (channels i).events src 14 (SharedUse.operationsOn i uses) ⟨.start objects, {}⟩) ∧
      after.2.metrics = ReadMetrics.ofEvents (Happening.sinceReset after.1) := by
  intro src object channels objects uses after
  let data : Bool → ByteArray := fun i => if i then ⟨#[1, 2, 3, 4, 5, 6]⟩ else ⟨#[7, 8]⟩
  have hsize : ∀ i, (data i).size = (object i).size := by decide
  have hserves : ∀ i, (Memory.store 1).Serves (object i) (data i)
      fun objects => ∀ i, objects.lookup (object i).path = some (data i) := fun i =>
    Memory.store_serves_where 1 (hsize i) fun h => h i
  have hnew : ∀ i, (channels i).IsNew := fun i => by
    cases i
    · exact .simple _ _
    · exact .adaptive _ _
  have hobject : ∀ i, (channels i).object = object i := fun i => by cases i <;> rfl
  have hobjects : ∀ i, objects.lookup (object i).path = some (data i) := fun i => by cases i <;> rfl
  have hn : ∀ i, 2 * (object i).size + 1 < 14 := by decide
  have halone := shared_as_alone hserves hsize 8 hn hnew hobject hobjects uses
  exact ⟨by decide +kernel, by decide +kernel, fun i => (halone.1 i).2 objects hobjects, halone.2⟩

end Shared

end RangeRead
