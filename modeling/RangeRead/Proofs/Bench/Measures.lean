import RangeRead.Proofs.Bench.Replay
import RangeRead.Proofs.Channel.Demands
import RangeRead.Proofs.Store.Requests

/-!
# What a benchmark measures

The transport of a benchmark takes a window down in its trace and pauses before it (`TakenDown`); the store behind it is
asked for the windows that are not empty. So what a run has measured, and what the store was asked for, is what the
operations demand of a new channel (`Measures`, `run_measures`), whatever came before.
-/

namespace RangeRead

variable {σ C H : Type} {store : Store σ C} {t : Transport σ H} {o : ObjectHandle} {data : ByteArray} {I : σ → Prop}

/-- The window that a record is about. -/
def RequestRecord.window (record : RequestRecord) : Int × Int := (record.start, record.stop)

/-- Counting bytes does not change what a trace is about. -/
theorem RequestTrace.updateBytesRead_windows (trace : RequestTrace) (serial : Nat) (f : Int → Int) :
    (trace.updateBytesRead serial f).requests.map RequestRecord.window = trace.requests.map RequestRecord.window := by
  unfold updateBytesRead
  split
  · rfl
  · refine List.ext_getElem? fun i => ?_
    simp only [List.getElem?_map, List.getElem?_modify]
    split
    · cases trace.requests[i]? <;> rfl
    · simp

namespace Bench

/-! ## Layers -/

/-- No record is refused where nobody is shown any. -/
theorem accepts_none : Observer.Accepts (none : Option (Observer Unit)) := fun _ _ => rfl

/-- Behind its trace and its pauses, if they are not refused, the transport of a benchmark is the one that it was made
of. -/
theorem benchTransport_covers (t : Transport σ H) :
    (benchTransport t none).Covers t TracedRange.behind fun s => s.behind.behind :=
  (Transport.traced_covers (t.paused none) _ accepts_none).trans (Transport.paused_covers t)

/-- The windows that were asked for are in the trace and among those that were opened, and there was a pause before each
of them. -/
structure TakenDown (pauses : Nat) (s : Logged (BenchState (Listed σ))) : Prop where
  traced : s.behind.trace.requests.map RequestRecord.window = Call.windows s.calls
  listed : s.behind.behind.behind.windows = Call.windows s.calls
  paused : s.behind.behind.pauses = pauses + (Call.windows s.calls).length

/-- A call that asks for no window is not taken down. -/
theorem TakenDown.call {pauses : Nat} {s s' : Logged (BenchState (Listed σ))} (h : TakenDown pauses s) {call : Call}
    (hcalls : s'.calls = s.calls ++ [call]) (hnone : call.window? = none)
    (htrace : s'.behind.trace.requests.map RequestRecord.window = s.behind.trace.requests.map RequestRecord.window)
    (hlisted : s'.behind.behind.behind.windows = s.behind.behind.behind.windows)
    (hpaused : s'.behind.behind.pauses = s.behind.behind.pauses) : TakenDown pauses s' where
  traced := by rw [htrace, hcalls, Call.windows_snoc _ hnone, h.traced]
  listed := by rw [hlisted, hcalls, Call.windows_snoc _ hnone, h.listed]
  paused := by rw [hpaused, hcalls, Call.windows_snoc _ hnone, h.paused]

/-- Where every window of the object is opened, all calls are taken down. -/
theorem takenDown_preserved (hopens : ∀ {start stop : Int} {s : σ}, o.Window start stop →
    ∃ h s', t.openRange o start stop s = (.ok h, s')) (pauses : Nat) :
    (benchTransport t.listing none).logged.Preserves o (TakenDown pauses) where
  openRange {start stop s a s'} hw hs hopen := by
    obtain ⟨h, s₁, hopened⟩ := @hopens _ _ s.behind.behind.behind.behind hw
    simp only [benchTransport, Transport.logged, Transport.traced, Transport.openTraced, Transport.paused,
      Transport.listing, hopened, Transport.showRecord, RequestTrace.add] at hopen
    cases hopen
    have hwindows : Call.windows (s.calls ++ [.opened s.opened start stop]) = Call.windows s.calls ++ [(start, stop)] :=
      Call.windows_snoc_window s.calls rfl
    have hstop : start + (stop - start) = stop := by omega
    refine ⟨?_, ?_, ?_⟩
    · rw [hwindows, ← hs.traced, List.map_append]
      show _ ++ [(start, start + (stop - start))] = _
      rw [hstop]
    · rw [hwindows, ← hs.listed]
    · rw [hwindows, List.length_append, ← Nat.add_assoc, ← hs.paused]
      rfl
  pin hs hpin := by
    have hcalls := (Transport.logged_pin hpin).2.2
    cases hpin
    exact hs.call hcalls rfl rfl rfl rfl
  read {want h s reply h' s'} hs hread := by
    obtain ⟨hbehind, -, -, htrace⟩ := Transport.traced_read (Transport.logged_read_behind hread)
    have hstate : ((t.listing.paused none).read want h.behind.behind s.behind.behind).2.2 = s'.behind.behind := by
      rw [hbehind]
    refine hs.call (Transport.logged_read hread).2.2 rfl ?_ ?_ ?_
    · rw [htrace]
      unfold Transport.counted
      split
      · exact RequestTrace.updateBytesRead_windows _ _ _
      · rfl
      · rfl
    · rw [← hstate]
      rfl
    · rw [← hstate]
      rfl
  close {h s} hs := hs.call (Transport.logged_close (Prod.eta _).symm).2 rfl rfl rfl rfl
  note hs := ⟨hs.traced, hs.listed, hs.paused⟩

/-! ## Over a store that serves the object -/

/-- What is known of the transport of a benchmark with a list of the ranges that the store opened. -/
def benchView (store : Store σ C) (o : ObjectHandle) (data : ByteArray) (I : σ → Prop) :
    View (BenchState (Listed (Asked σ))) (TracedRange (StoreRange C)) :=
  (store.logged.view o data fun s => I s.behind).through TracedRange.behind fun s => s.behind.behind.behind

theorem benchView_reliable (hserves : store.Serves o data I) (hsize : data.size = o.size) :
    (benchTransport store.logged.transport.listing none).Reliable o data (benchView store o data I) :=
  ((benchTransport_covers _).trans (Transport.listing_covers _)).reliable
    (Store.transport_reliable hserves.logged hsize)

/-- The store goes on to serve. -/
theorem benchView_serving {range : Option (OpenRange (Numbered (TracedRange (StoreRange C))))}
    {s : Logged (BenchState (Listed (Asked σ)))} (h : (benchView store o data I).logged.Holds o range s) :
    I s.behind.behind.behind.behind.behind := by
  cases range with
  | none => exact h
  | some r => exact h.1.1

/-! ## Measures -/

/-- What was demanded between two states of a benchmark's transport is what it has measured, and what the
store was asked for; the store goes on to serve. -/
structure Measures (o : ObjectHandle) (I : σ → Prop) (demand : Demand) (s s' : BenchState (Asked σ)) : Prop where
  serving : I s'.behind.behind.behind
  requests : s'.behind.behind.requests = s.behind.behind.requests ++ Store.gets o demand.windows
  pauses : s'.behind.pauses = s.behind.pauses + demand.windows.length
  windows : s'.trace.requests.map RequestRecord.window = demand.windows
  pulled : s'.trace.totalBytesRead = demand.pulled

theorem Measures.totalRequests {demand : Demand} {s s' : BenchState (Asked σ)} (h : Measures o I demand s s') :
    s'.trace.totalRequests = demand.windows.length := by
  rw [← h.windows, List.length_map]
  rfl

/-- The bytes that were asked for are those of the windows. -/
theorem Measures.totalBytes {demand : Demand} {s s' : BenchState (Asked σ)} (h : Measures o I demand s s') :
    s'.trace.totalBytes = (demand.windows.map fun window => window.2 - window.1).sum := by
  have hlengths : s'.trace.requests.map RequestRecord.length =
      s'.trace.requests.map ((fun window => window.2 - window.1) ∘ RequestRecord.window) := by
    refine List.map_congr_left fun record _ => ?_
    show record.length = record.start + record.length - record.start
    omega
  rw [totalBytes_eq, ← h.windows, List.map_map, hlengths]

/-- With a log, a run of a new channel measures what its outline demands. -/
theorem run_logged_measures (hserves : store.Serves o data I) (hsize : data.size = o.size) (memory : Nat) {n : Nat}
    (hn : 2 * o.size + 1 < n) (operations : List Operation) {c : Channel (Numbered (TracedRange (StoreRange C)))}
    (hnew : Channel.IsNew c) (hobject : c.object = o) {s : Asked σ} (hs : I s.behind) (pauses readings : Nat) :
    let start : BenchState (Listed (Asked σ)) := { behind := ⟨.start s, pauses⟩, observer := (), readings := readings }
    let after := c.run ⟨(benchTransport store.logged.transport.listing none).logged, none, memory⟩ n operations
      ⟨.start start, ()⟩
    Measures o I (c.outline.demands memory operations) (start.map (Paused.map Listed.behind))
      (after.2.2.transport.behind.map (Paused.map Listed.behind)) := by
  intro start after
  have ht := benchView_reliable hserves hsize
  have hplaced : ∀ {W : Logged (BenchState (Listed (Asked σ))) → Prop}, W (.start start) →
      Channel.Placed ((benchView store o data I).logged.and W) o c (.start start) := fun hW =>
    hnew.placed hobject ⟨hs, hW⟩
  -- what the channel calls for
  obtain ⟨made, hcalls, hwindows, hpulled⟩ := @Channel.run_yields _ _ _ _ _ _ _ none memory n ht nofun hsize hn
    operations c ⟨.start start, ()⟩ (hplaced nofun)
  obtain rfl : after.2.2.transport.calls = made := hcalls
  -- what the layers have taken down of it
  have hopens : ∀ {start stop : Int} {s : Asked σ}, o.Window start stop →
      ∃ h s', store.logged.transport.openRange o start stop s = (.ok h, s') := fun hw =>
    ⟨_, _, Prod.ext (Store.openRange_window hw) rfl⟩
  obtain ⟨hholds, htaken⟩ := View.holds_and (@Channel.Invariant.run _ _ _
    ⟨(benchTransport store.logged.transport.listing none).logged, none, memory⟩ _
    (Channel.placed_invariant (ht.toHonest.logged.and (takenDown_preserved hopens pauses))) c ⟨.start start, ()⟩
    (hplaced ⟨rfl, rfl, rfl⟩) n operations).holds
  have hcounted := @Channel.Invariant.run _ _ _
    ⟨(benchTransport store.logged.transport.listing none).logged, none, memory⟩ _
    (Channel.counted_invariant (store.logged.transport.listing.paused none) (fun _ => 0) (none : Option (Observer Unit)))
    c ⟨.start start, ()⟩ (by rw [hnew.range]; exact .of_total rfl rfl) n operations
  -- what the store was asked for
  have hcovers := (benchTransport store.logged.transport.listing none).logged_covers.trans (benchTransport_covers _)
  have hbooks := @Channel.Invariant.run _ _ _ ⟨store.logged.transport.listing, none, memory⟩ _
    (Store.books_invariant store o s.requests) (c.behind (TracedRange.behind ∘ Numbered.behind)) ⟨.start s, ()⟩
    (.of_none hobject hnew.behind.range (List.append_nil _).symm) n operations
  have hrun : (c.behind (TracedRange.behind ∘ Numbered.behind)).run ⟨store.logged.transport.listing, none, memory⟩ n
      operations ⟨Listed.start s, ()⟩ = _ := Channel.run_behind hcovers n operations c ⟨.start start, ()⟩
  rw [hrun] at hbooks
  have hlisted : after.2.2.transport.behind.behind.behind.windows = _ := htaken.listed.trans hwindows
  refine ⟨benchView_serving hholds, ?_, ?_, htaken.traced.trans hwindows, hcounted.total.trans hpulled⟩
  · rw [← hlisted]
    exact (hbooks.balanced rfl).1
  · rw [← hwindows]
    exact htaken.paused

/-- So does a run without a log, wherever the serial numbers of the trace begin. -/
theorem run_measures (hserves : store.Serves o data I) (hsize : data.size = o.size) (memory : Nat) {n : Nat}
    (hn : 2 * o.size + 1 < n) (operations : List Operation) {c : Channel (TracedRange (StoreRange C))}
    (hnew : Channel.IsNew c) (hobject : c.object = o) {s : BenchState (Asked σ)} (hs : I s.behind.behind.behind)
    (hclear : s.trace.requests = []) :
    Measures o I (c.outline.demands memory operations) s
      (c.run ⟨benchTransport store.logged.transport none, none, memory⟩ n operations ⟨s, ()⟩).2.2.transport := by
  obtain ⟨⟨behind, pauses⟩, ⟨requests, cleared⟩, observer, readings⟩ := s
  obtain rfl : requests = [] := hclear
  have hlayers := ((Transport.listing_covers store.logged.transport).paused none).traced (fun _ => 0)
    (none : Option (Observer Unit))
  have hcovers := ((benchTransport store.logged.transport.listing none).logged_covers).trans
    (hlayers.trans (Transport.traced_renumber (store.logged.transport.paused none) (fun _ => 0) none cleared))
  obtain ⟨c, hnew', rfl⟩ := hnew.exists_behind ((TracedRange.renumber cleared ∘ TracedRange.map id) ∘
    (Numbered.behind : Numbered (TracedRange (StoreRange C)) → TracedRange (StoreRange C)))
  let start : BenchState (Listed (Asked σ)) :=
    { behind := ⟨.start behind, pauses⟩, observer := observer, readings := readings }
  have hstart : (start.map (Paused.map Listed.behind)).renumber cleared =
      ⟨⟨behind, pauses⟩, ⟨[], cleared⟩, observer, readings⟩ := by
    unfold Traced.renumber
    dsimp only [start, Traced.map, Paused.map, Listed.start]
    rw [Nat.zero_add]
  have hrun : Channel.run ⟨benchTransport store.logged.transport none, none, memory⟩ n operations (c.behind _)
      ⟨(start.map (Paused.map Listed.behind)).renumber cleared, ()⟩ = _ :=
    Channel.run_behind hcovers n operations c ⟨.start start, ()⟩
  have hmeasures := run_logged_measures hserves hsize memory hn operations hnew' hobject hs pauses readings
  rw [hstart] at hrun
  rw [hrun, Channel.behind_outline]
  exact ⟨hmeasures.serving, hmeasures.requests, hmeasures.pauses, hmeasures.windows, hmeasures.pulled⟩

end Bench

end RangeRead
