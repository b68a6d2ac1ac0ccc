import RangeRead.Proofs.Channel.Flawless
import RangeRead.Proofs.Channel.Placed
import RangeRead.Proofs.Store.Standing
import RangeRead.Proofs.Tracing
import RangeRead.Proofs.Transport.Windows

/-!
# What the records of a trace count

A traced transport is as honest as the one behind it, if nothing depends on whether a range is held there
(`Honest.traced`). Over a store, the record of the open range has counted the bytes from its start up to the cursor
(`Traced.Metered`), whatever fails and whenever the trace is cleared. So no record has counted less than nothing or more
than was asked for (`runTraced_bounded`).

While the trace is not cleared it has counted all that was reported (`counted_invariant`).
-/

namespace RangeRead

variable {σ C H κ ρ : Type} {t : Transport σ H} {store : Store σ C} {clock : Nat → Float}
  {observer : Option (Observer κ)} {o : ObjectHandle} {v : View σ H}

/-! ## Traced transports -/

/-- What is known of a traced transport is what is known of the one behind it. -/
def View.traced (v : View σ H) : View (Traced σ κ) (TracedRange H) where
  idle s := v.idle s.behind
  stands h cursor stop s := v.stands h.behind cursor stop s.behind

/-- No record is of less than nothing. -/
def Traced.AsksForward (s : Traced σ κ) : Prop := ∀ record ∈ s.trace.requests, 0 ≤ record.length

namespace Transport

theorem Counts.traced (ht : t.Counts) : (t.traced clock observer).Counts := fun hread => ht (traced_read hread).1

/-- A range whose record is refused stays open behind the trace, so that the view must not mind. -/
theorem Honest.traced (ht : t.Honest o v) (hidle : ∀ s, v.idle s) : (t.traced clock observer).Honest o v.traced where
  note_idle _ _ := hidle _
  note_stands notice hs := ht.note_stands notice hs
  opened hs hw heq := by
    obtain ⟨shown, opened, -, hbehind, hout⟩ := traced_openRange heq
    rcases hout with ⟨-, e, he⟩ | ⟨-, -, e, he⟩ | ⟨b, rfl, rfl, hok⟩
    · cases he
    · cases he
    · cases hok
      exact ht.opened hs hw hbehind
  refused _ _ _ := hidle _
  sought hs heq := ht.sought hs (traced_pin heq).1
  limited hs heq := ht.limited hs (traced_pin heq).1
  notPinned hs heq := ht.notPinned hs (traced_pin heq).1
  failed hs hw heq := ht.failed hs hw (traced_read heq).1
  ended hs hw heq := ht.ended hs hw (traced_read heq).1
  reports hs hw heq := ht.reports hs hw (traced_read heq).1
  delivered hs hw heq := ht.delivered hs hw (traced_read heq).1
  close _ := hidle _

/-- What is counted changes no record but for its bytes read. -/
theorem counted_mem {serial : Nat} {reply : Reply} {trace : RequestTrace} {record : RequestRecord}
    (h : record ∈ (counted serial reply trace).requests) : ∃ old ∈ trace.requests, record.length = old.length := by
  cases reply with
  | failed e => exact ⟨record, h, rfl⟩
  | endOfStream bytes => exact ⟨record, h, rfl⟩
  | delivered bytes excess =>
    obtain ⟨i, hi⟩ := List.mem_iff_getElem?.mp h
    have hcounted : (trace.updateBytesRead serial (· + (bytes.size + excess))).requests[i]? = some record := hi
    rw [RequestTrace.updateBytesRead_getElem?, Option.map_eq_some_iff] at hcounted
    obtain ⟨old, hold, rfl⟩ := hcounted
    refine ⟨old, List.mem_of_getElem? hold, ?_⟩
    split <;> rfl

/-- Only windows of an object are recorded, where only these are asked for. -/
theorem traced_asksForward (t : Transport σ H) (clock : Nat → Float) (observer : Option (Observer κ))
    (o : ObjectHandle) : (t.traced clock observer).Preserves o Traced.AsksForward where
  openRange {start stop s a s'} hw hs heq := by
    obtain ⟨_, _, hrecords, -, -⟩ := traced_openRange heq
    unfold Traced.AsksForward
    rw [hrecords.trace_eq]
    refine List.forall_mem_append.mpr ⟨hs, fun record hmem => ?_⟩
    rw [List.mem_singleton.mp hmem, hrecords.length_eq]
    exact Int.sub_nonneg_of_le hw.le
  pin hs heq := by
    unfold Traced.AsksForward
    rw [(traced_pin heq).2.2.1]
    exact hs
  read hs heq := by
    unfold Traced.AsksForward
    rw [(traced_read heq).2.2.2]
    intro record hmem
    obtain ⟨old, hold, hlength⟩ := counted_mem hmem
    rw [hlength]
    exact hs old hold
  close hs := hs
  note hs := hs

theorem traced_closeQuietly_trace (r : TracedRange H) (s : Traced σ κ) :
    ((t.traced clock observer).closeQuietly o r s).trace = s.trace := by rw [traced_closeQuietly]

/-- A range that is opened and pinned gets the next record, whether or not that succeeds. -/
theorem traced_openPinned {start stop : Int} {s s' : Traced σ κ} {a : Except ReadError (TracedRange H)}
    (heq : (t.traced clock observer).openPinned o start stop s = (a, s')) :
    ∃ record, s'.trace = (s.trace.add record).2 ∧ record.start = start ∧ record.stop = stop ∧ record.bytesRead = 0 ∧
      ∀ h, a = .ok h → h.serial = s.trace.cleared + s.trace.requests.length := by
  have hasked : ∀ {b s₁}, (t.traced clock observer).openRange o start stop s = (b, s₁) →
      ∃ record, s₁.trace = (s.trace.add record).2 ∧ record.start = start ∧ record.stop = stop ∧
        record.bytesRead = 0 ∧ ∀ h, b = .ok h → h.serial = s.trace.cleared + s.trace.requests.length := by
    intro b s₁ hopen
    obtain ⟨shown, opened, hrecords, -, hout⟩ := traced_openRange hopen
    refine ⟨_, hrecords.trace_eq, hrecords.start_eq, ?_, hrecords.bytesRead_eq, fun h hok => ?_⟩
    · show _ + _ = stop
      rw [hrecords.start_eq, hrecords.length_eq]
      omega
    · rcases hout with ⟨-, e, rfl⟩ | ⟨-, -, e, rfl⟩ | ⟨b, -, -, rfl⟩
      · cases hok
      · cases hok
      · cases hok
        rfl
  cases Opens.of_eq heq with
  | refused hopen =>
    obtain ⟨record, htrace, hstart, hstop, hnothing, -⟩ := hasked hopen
    exact ⟨record, htrace, hstart, hstop, hnothing, nofun⟩
  | notSought hopen hseek =>
    obtain ⟨record, htrace, hstart, hstop, hnothing, -⟩ := hasked hopen
    rw [traced_closeQuietly]
    exact ⟨record, (traced_pin hseek).2.2.1.trans htrace, hstart, hstop, hnothing, nofun⟩
  | notLimited hopen hseek hlimit =>
    obtain ⟨record, htrace, hstart, hstop, hnothing, -⟩ := hasked hopen
    rw [traced_closeQuietly]
    exact ⟨record, (traced_pin hlimit).2.2.1.trans ((traced_pin hseek).2.2.1.trans htrace), hstart, hstop, hnothing,
      nofun⟩
  | opened hopen hseek hlimit =>
    obtain ⟨record, htrace, hstart, hstop, hnothing, hserial⟩ := hasked hopen
    refine ⟨record, (traced_pin hlimit).2.2.1.trans ((traced_pin hseek).2.2.1.trans htrace), hstart, hstop, hnothing,
      fun h hok => ?_⟩
    cases hok
    rw [(traced_pin hlimit).2.1, (traced_pin hseek).2.1]
    exact hserial _ rfl

end Transport

/-! ## Records of ranges of a store -/

namespace Store

/-- A range that has been opened and pinned stands at the start of its window. -/
theorem traced_openPinned_stands {start stop : Int} {s s' : Traced σ κ} {h : TracedRange (StoreRange C)}
    (heq : (store.transport.traced clock observer).openPinned o start stop s = (.ok h, s')) :
    h.behind.position = start ∧ h.behind.stop = stop ∧ start ≤ stop := by
  cases Opens.of_eq heq with
  | opened hopen hseek hlimit =>
    obtain ⟨_, _, -, hbehind, hout⟩ := Transport.traced_openRange hopen
    obtain ⟨-, hlimited⟩ := pinRange_limit_ok (transport_pin (Transport.traced_pin hlimit).1).1
    obtain ⟨-, hsought⟩ := pinRange_seek_ok (transport_pin (Transport.traced_pin hseek).1).1
    rw [hlimited, hsought]
    refine ⟨rfl, rfl, ?_⟩
    rcases hout with ⟨-, e, he⟩ | ⟨-, -, e, he⟩ | ⟨b, rfl, -, -⟩
    · cases he
    · cases he
    · have hrange : (openRange o start stop : Except ReadError (StoreRange C)) = .ok b := congrArg Prod.fst hbehind
      unfold openRange at hrange
      split at hrange
      · rename_i hwindow
        exact hwindow.2
      · cases hrange

end Store

/-- The records have counted what was pulled from their ranges, and the open range of a channel knows its own. -/
structure Traced.Metered (s : Traced σ κ) (range : Option (OpenRange (TracedRange (StoreRange C)))) : Prop where
  bounded : ∀ record ∈ s.trace.requests,
    0 ≤ record.bytesRead ∧ (record.bytesRead = 0 ∨ record.bytesRead ≤ record.length)
  stands : ∀ r, range = some r →
    r.handle.behind.position = r.cursor ∧ r.handle.behind.stop = r.stop ∧ r.cursor ≤ r.stop
  /-- The record of the open range, unless it has been cleared away. -/
  counts : ∀ r, range = some r → ∀ (i : Nat) (record : RequestRecord), s.trace.requests[i]? = some record →
    r.handle.serial = s.trace.cleared + i → record.start + record.bytesRead = r.cursor ∧ record.stop = r.stop

namespace Traced.Metered

variable {s s' : Traced σ κ} {range : Option (OpenRange (TracedRange (StoreRange C)))}

/-- Without a range it is only for the records to be bounded. -/
theorem of_bounded
    (hbounded : ∀ record ∈ s.trace.requests,
      0 ≤ record.bytesRead ∧ (record.bytesRead = 0 ∨ record.bytesRead ≤ record.length)) :
    s.Metered (none : Option (OpenRange (TracedRange (StoreRange C)))) where
  bounded := hbounded
  stands _ hr := by cases hr
  counts _ hr := by cases hr

/-- A range can be dropped. -/
theorem dropped (h : s.Metered range) (htrace : s'.trace = s.trace) :
    s'.Metered (none : Option (OpenRange (TracedRange (StoreRange C)))) := by
  refine of_bounded ?_
  rw [htrace]
  exact h.bounded

/-- Clearing the trace leaves no record. -/
theorem clear (h : s.Metered range) : Traced.Metered { s with trace := s.trace.clear } range where
  bounded := nofun
  stands := h.stands
  counts r _ i record hrecord := by cases hrecord

/-- A range that is asked for gets a record that has counted nothing. -/
theorem openPinned {start stop : Int} {a : Except ReadError (TracedRange (StoreRange C))} (h : s.Metered range)
    (heq : (store.transport.traced clock observer).openPinned o start stop s = (a, s')) :
    s'.Metered (none : Option (OpenRange (TracedRange (StoreRange C)))) ∧
      ∀ handle, a = .ok handle → s'.Metered (some ⟨handle, start, stop⟩) := by
  obtain ⟨record, htrace, hstart, hstop, hnothing, hserial⟩ := Transport.traced_openPinned heq
  have hrequests : s'.trace.requests = s.trace.requests ++ [record] := by rw [htrace]; rfl
  have hcleared : s'.trace.cleared = s.trace.cleared := by rw [htrace]; rfl
  have hbounded : ∀ record ∈ s'.trace.requests,
      0 ≤ record.bytesRead ∧ (record.bytesRead = 0 ∨ record.bytesRead ≤ record.length) := by
    rw [hrequests]
    refine List.forall_mem_append.mpr ⟨h.bounded, fun record' hmem => ?_⟩
    rw [List.mem_singleton.mp hmem, hnothing]
    exact ⟨Int.le_refl 0, .inl rfl⟩
  refine ⟨of_bounded hbounded, fun handle hok => ?_⟩
  refine ⟨hbounded, fun r hr => ?_, fun r hr i record' hrecord hlink => ?_⟩
  · cases hr
    subst hok
    exact Store.traced_openPinned_stands heq
  · cases hr
    have hlast : s.trace.cleared + s.trace.requests.length = s'.trace.cleared + i :=
      (hserial handle hok).symm.trans hlink
    have hi : i = s.trace.requests.length := by omega
    rw [hrequests, hi, List.getElem?_concat_length] at hrecord
    cases hrecord
    rw [hnothing, Int.add_zero]
    exact ⟨hstart, hstop⟩

/-- A read that reports no bytes changes no record. -/
theorem ended {r : OpenRange (TracedRange (StoreRange C))} {want : Nat} {bytes : ByteArray}
    {handle : TracedRange (StoreRange C)} (h : s.Metered (some r))
    (hread : (store.transport.traced clock observer).read want r.handle s = (.endOfStream bytes, handle, s')) :
    s'.Metered (some { r with handle := handle }) := by
  obtain ⟨hbehind, hserial, -, htrace⟩ := Transport.traced_read hread
  have hsame : s'.trace = s.trace := htrace
  obtain ⟨hstop, hstays, -⟩ := (Store.ReadsRange.of_eq hbehind).stands
  obtain ⟨hcursor, hend, hle⟩ := h.stands r rfl
  refine ⟨?_, fun r' hr' => ?_, fun r' hr' i record hrecord hlink => ?_⟩
  · rw [hsame]
    exact h.bounded
  · cases hr'
    exact ⟨(hstays bytes rfl).trans hcursor, hstop.trans hend, hle⟩
  · cases hr'
    rw [hsame] at hrecord hlink
    exact h.counts r rfl i record hrecord (hserial.symm.trans hlink)

/-- What a read reports is counted in the record of its range, and is no more than is left of that. -/
theorem delivered {r : OpenRange (TracedRange (StoreRange C))} {want : Nat} {bytes : ByteArray} {excess : Int}
    {handle : TracedRange (StoreRange C)} (h : s.Metered (some r))
    (hread : (store.transport.traced clock observer).read want r.handle s = (.delivered bytes excess, handle, s')) :
    s'.Metered (some (r.advance handle (bytes.size + excess))) := by
  obtain ⟨hbehind, hserial, -, htrace⟩ := Transport.traced_read hread
  have hcounted : s'.trace = s.trace.updateBytesRead r.handle.serial (· + (bytes.size + excess)) := htrace
  have hcleared : s'.trace.cleared = s.trace.cleared := by rw [hcounted, RequestTrace.updateBytesRead_cleared]
  obtain ⟨hstop, -, hdelivered⟩ := (Store.ReadsRange.of_eq hbehind).stands
  obtain ⟨rfl, -, hleft, hposition⟩ := hdelivered bytes excess rfl
  obtain ⟨hcursor, hend, hle⟩ := h.stands r rfl
  have hwithin := hleft (by omega)
  have hrecords : ∀ (i : Nat) (record : RequestRecord), s'.trace.requests[i]? = some record →
      ∃ old, s.trace.requests[i]? = some old ∧ record =
        if r.handle.serial = s.trace.cleared + i then { old with bytesRead := old.bytesRead + (bytes.size + 0) }
        else old := by
    intro i record hrecord
    rw [hcounted, RequestTrace.updateBytesRead_getElem?, Option.map_eq_some_iff] at hrecord
    obtain ⟨old, hold, heq⟩ := hrecord
    exact ⟨old, hold, heq.symm⟩
  refine ⟨fun record hmem => ?_, fun r' hr' => ?_, fun r' hr' i record hrecord hlink => ?_⟩
  · obtain ⟨i, hi⟩ := List.mem_iff_getElem?.mp hmem
    obtain ⟨old, hold, rfl⟩ := hrecords i record hi
    obtain ⟨hnonneg, hbound⟩ := h.bounded old (List.mem_of_getElem? hold)
    split
    · rename_i hlink
      obtain ⟨hat, hends⟩ := h.counts r rfl i old hold hlink
      have hlength : old.start + old.length = r.stop := hends
      dsimp only
      omega
    · exact ⟨hnonneg, hbound⟩
  · cases hr'
    show handle.behind.position = r.cursor + (bytes.size + 0) ∧ handle.behind.stop = r.stop ∧
      r.cursor + (bytes.size + 0) ≤ r.stop
    omega
  · cases hr'
    have hlinked : r.handle.serial = s.trace.cleared + i := by
      rw [← hserial, ← hcleared]
      exact hlink
    obtain ⟨old, hold, rfl⟩ := hrecords i record hrecord
    obtain ⟨hat, hends⟩ := h.counts r rfl i old hold hlinked
    rw [if_pos hlinked]
    show old.start + (old.bytesRead + (bytes.size + 0)) = r.cursor + (bytes.size + 0) ∧ old.start + old.length = r.stop
    exact ⟨by omega, hends⟩

end Traced.Metered

namespace Channel

/-- Every action keeps the records metered. -/
theorem Acts.metered {p q : Phase (Traced σ κ) (TracedRange (StoreRange C))}
    (h : Acts (store.transport.traced clock observer) p q) (hp : p.state.Metered p.channel.range) :
    q.state.Metered q.channel.range := by
  cases h with
  | notes notice => exact ⟨hp.bounded, hp.stands, hp.counts⟩
  | @refused c s need e s' hr hopen =>
    show s'.Metered c.range
    rw [hr]
    exact (hp.openPinned hopen).1
  | opens hr hopen => exact (hp.openPinned hopen).2 _ rfl
  | fails hr _ hread =>
    obtain ⟨-, -, -, htrace⟩ := Transport.traced_read hread
    exact hp.dropped ((Transport.traced_closeQuietly_trace _ _).trans htrace)
  | ends hr _ hread =>
    dsimp only at hp
    rw [hr] at hp
    exact hp.ended hread
  | skips hr _ _ hread =>
    dsimp only at hp
    rw [hr] at hp
    exact hp.delivered hread
  | delivers hr _ hread =>
    dsimp only at hp
    rw [hr] at hp
    exact hp.delivered hread
  | drops hr => exact hp.dropped (Transport.traced_closeQuietly_trace _ _)
  | leaves hr => exact hp.dropped (Transport.traced_closeQuietly_trace _ _)

/-- Every operation keeps the records metered. -/
theorem metered_invariant (store : Store σ C) (clock : Nat → Float) (observer : Option (Observer κ)) :
    Invariant (store.transport.traced clock observer) fun c s => s.Metered c.range :=
  Invariant.of_acts (P := fun p => p.state.Metered p.channel.range) (fun hp h => h.metered hp) (fun _ hp _ => hp)
    (fun hp _ => hp)

/-- What operations keep, and clearing the trace, is kept by runs in which the trace is cleared. -/
theorem Invariant.runTraced {t : Transport (Traced σ κ) H} {recorder : Option (Recorder ρ)} {memory : Nat}
    {P : Channel H → Traced σ κ → Prop} (hP : Invariant t P)
    (hclear : ∀ {c s}, P c s → P c { s with trace := s.trace.clear }) (n : Nat) (uses : List TracedUse) {c : Channel H}
    {w : World (Traced σ κ) ρ} (h : P c w.transport) :
    P (Channel.runTraced ⟨t, recorder, memory⟩ n uses c w).2.1
      (Channel.runTraced ⟨t, recorder, memory⟩ n uses c w).2.2.transport := by
  induction uses generalizing c w with
  | nil => exact h
  | cons use uses ih =>
    cases use with
    | perform operation =>
      have hperform := @Invariant.perform _ _ _ ⟨t, recorder, memory⟩ P hP c w h n operation
      exact ih hperform
    | clear => exact @ih c { w with transport := { w.transport with trace := w.transport.trace.clear } } (hclear h)

/-- Whatever is done, no record has counted less than nothing or more than was asked for. -/
theorem runTraced_bounded {recorder : Option (Recorder ρ)} {memory n : Nat} {c : Channel (TracedRange (StoreRange C))}
    (hnew : IsNew c) (uses : List TracedUse) (s : σ) (k : κ) (r : ρ) :
    let after := runTraced ⟨store.transport.traced clock observer, recorder, memory⟩ n uses c
      ⟨{ behind := s, observer := k }, r⟩
    ∀ record ∈ after.2.2.transport.trace.requests, 0 ≤ record.bytesRead ∧ record.bytesRead ≤ record.length := by
  intro after record hmem
  have ht := ((Store.transport_honest store c.object).traced fun _ => trivial).and
    (Transport.traced_asksForward store.transport clock observer c.object)
  have hasked : Placed ((Store.standing σ C).traced.and Traced.AsksForward) c.object after.2.1 after.2.2.transport := by
    refine (placed_invariant ht).runTraced (fun {c' s'} hp => ?_) n uses (hnew.placed rfl ⟨trivial, nofun⟩)
    obtain ⟨hobject, h0, hle, hholds⟩ := hp
    refine ⟨hobject, h0, hle, ?_⟩
    cases hr : c'.range with
    | none => exact ⟨trivial, nofun⟩
    | some r' =>
      rw [hr] at hholds
      exact ⟨⟨hholds.1.1, nofun⟩, hholds.2⟩
  have hmetered : after.2.2.transport.Metered after.2.1.range := by
    refine (metered_invariant store clock observer).runTraced (fun hs => hs.clear) n uses ?_
    rw [hnew.range]
    exact .of_bounded nofun
  obtain ⟨h0, hbound⟩ := hmetered.bounded record hmem
  have hlength : 0 ≤ record.length := (View.holds_and hasked.holds).2 record hmem
  rcases hbound with hnothing | hle
  · exact ⟨h0, by omega⟩
  · exact ⟨h0, hle⟩

end Channel

/-! ## Totals -/

/-- What is added to the bytes read of one record is added to their sum. -/
theorem RequestRecord.sum_bytesRead_modify (n : Int) (records : List RequestRecord) {i : Nat} (h : i < records.length) :
    ((records.modify i fun r => { r with bytesRead := r.bytesRead + n }).map bytesRead).sum =
      (records.map bytesRead).sum + n := by
  induction records generalizing i with
  | nil => exact absurd h (Nat.not_lt_zero i)
  | cons record records ih =>
    cases i with
    | zero =>
      simp only [List.modify_zero_cons, List.map_cons, List.sum_cons]
      omega
    | succ i =>
      have hrest := ih (Nat.lt_of_succ_lt_succ h)
      simp only [List.modify_succ_cons, List.map_cons, List.sum_cons, hrest]
      omega

/-- And so it is added to the total of the trace. -/
theorem RequestTrace.totalBytesRead_update {trace : RequestTrace} {serial : Nat} (hcleared : trace.cleared ≤ serial)
    (hissued : serial < trace.cleared + trace.requests.length) (n : Int) :
    (trace.updateBytesRead serial (· + n)).totalBytesRead = trace.totalBytesRead + n := by
  rw [totalBytesRead_eq, totalBytesRead_eq]
  unfold updateBytesRead
  rw [if_neg (Nat.not_lt.mpr hcleared)]
  exact RequestRecord.sum_bytesRead_modify n trace.requests (by omega)

/-- What a reply reports is added to the total, if the range has a record. -/
theorem Transport.counted_total {trace : RequestTrace} {serial : Nat} {reply : Reply}
    (hcleared : trace.cleared ≤ serial) (hissued : serial < trace.cleared + trace.requests.length)
    (number want : Nat) :
    (counted serial reply trace).cleared = trace.cleared ∧
      (counted serial reply trace).requests.length = trace.requests.length ∧
      (counted serial reply trace).totalBytesRead = trace.totalBytesRead + (Call.read number want reply).reported := by
  cases reply with
  | failed e => exact ⟨rfl, rfl, (Int.add_zero _).symm⟩
  | endOfStream bytes => exact ⟨rfl, rfl, (Int.add_zero _).symm⟩
  | delivered bytes excess =>
    exact ⟨RequestTrace.updateBytesRead_cleared _ _ _, RequestTrace.updateBytesRead_length _ _ _,
      RequestTrace.totalBytesRead_update hcleared hissued _⟩

/-- The trace has not been cleared, the open range has a record, and all that was reported has been counted. -/
structure Logged.Counted (s : Logged (Traced σ κ)) (range : Option (OpenRange (Numbered (TracedRange H)))) : Prop where
  cleared : s.behind.trace.cleared = 0
  issued : ∀ r, range = some r → r.handle.behind.serial < s.behind.trace.requests.length
  total : s.behind.trace.totalBytesRead = Call.totalReported s.calls

namespace Logged.Counted

variable {s s' : Logged (Traced σ κ)} {range : Option (OpenRange (Numbered (TracedRange H)))}

/-- Without a range it is only for the total to be right. -/
theorem of_total (hcleared : s.behind.trace.cleared = 0)
    (htotal : s.behind.trace.totalBytesRead = Call.totalReported s.calls) :
    s.Counted (none : Option (OpenRange (Numbered (TracedRange H)))) where
  cleared := hcleared
  issued _ hr := by cases hr
  total := htotal

/-- Where nothing is counted and nothing reported, nothing changes. -/
theorem quiet (h : s.Counted range) (htrace : s'.behind.trace = s.behind.trace)
    (hreported : Call.totalReported s'.calls = Call.totalReported s.calls) :
    s'.Counted (none : Option (OpenRange (Numbered (TracedRange H)))) := by
  refine of_total ?_ ?_
  · rw [htrace]
    exact h.cleared
  · rw [htrace, hreported]
    exact h.total

/-- Closing a range changes nothing. -/
theorem closeQuietly (h : s.Counted range) (o : ObjectHandle) (r : Numbered (TracedRange H)) :
    Logged.Counted ((t.traced clock observer).logged.closeQuietly o r s)
      (none : Option (OpenRange (Numbered (TracedRange H)))) := by
  refine h.quiet ?_ (Transport.logged_closeQuietly_reported o r s)
  rw [← ((t.traced clock observer).logged_covers).closeQuietly]
  exact Transport.traced_closeQuietly_trace _ _

/-- A range that is asked for gets a record, which has counted nothing. -/
theorem openPinned {start stop : Int} {a : Except ReadError (Numbered (TracedRange H))} (h : s.Counted range)
    (heq : (t.traced clock observer).logged.openPinned o start stop s = (a, s')) :
    s'.Counted (none : Option (OpenRange (Numbered (TracedRange H)))) ∧
      ∀ handle, a = .ok handle → s'.Counted (some ⟨handle, start, stop⟩) := by
  have hbehind := ((t.traced clock observer).logged_covers).openPinned o start stop s
  rw [heq] at hbehind
  obtain ⟨record, htrace, -, -, hnothing, hserial⟩ := Transport.traced_openPinned hbehind
  have hrequests : s'.behind.trace.requests = s.behind.trace.requests ++ [record] := by rw [htrace]; rfl
  have hcleared : s'.behind.trace.cleared = 0 := by rw [htrace]; exact h.cleared
  have htotal : s'.behind.trace.totalBytesRead = Call.totalReported s'.calls := by
    rw [Transport.logged_openPinned_reported heq, ← h.total, totalBytesRead_eq, totalBytesRead_eq,
      hrequests]
    simp [hnothing]
  refine ⟨of_total hcleared htotal, fun handle hok => ⟨hcleared, fun r hr => ?_, htotal⟩⟩
  cases hr
  subst hok
  have hlast := hserial handle.behind rfl
  rw [hrequests, hlast, h.cleared, List.length_append]
  simp

/-- What a read reports is counted. -/
theorem read {r r' : OpenRange (Numbered (TracedRange H))} {want : Nat} {reply : Reply} (h : s.Counted (some r))
    (hread : (t.traced clock observer).logged.read want r.handle s = (reply, r'.handle, s')) :
    s'.Counted (some r') := by
  obtain ⟨-, hserial, -, htrace⟩ := Transport.traced_read (Transport.logged_read_behind hread)
  have hissued := h.issued r rfl
  have hfirst := h.cleared
  obtain ⟨hcleared, hlength, htotal⟩ :=
    @Transport.counted_total s.behind.trace r.handle.behind.serial reply (by omega) (by omega) r.handle.number want
  refine ⟨?_, fun r'' hr'' => ?_, ?_⟩
  · rw [htrace, hcleared]
    exact h.cleared
  · cases hr''
    rw [htrace, hlength, hserial]
    exact hissued
  · rw [htrace, htotal, Transport.logged_read_reported hread, h.total]

end Logged.Counted

namespace Channel

/-- Every action leaves what was reported counted. -/
theorem Acts.counted {p q : Phase (Logged (Traced σ κ)) (Numbered (TracedRange H))}
    (h : Acts (t.traced clock observer).logged p q) (hp : p.state.Counted p.channel.range) :
    q.state.Counted q.channel.range := by
  cases h with
  | notes notice => exact ⟨hp.cleared, hp.issued, hp.total⟩
  | @refused c s need e s' hr hopen =>
    show s'.Counted c.range
    rw [hr]
    exact (hp.openPinned hopen).1
  | opens hr hopen => exact (hp.openPinned hopen).2 _ rfl
  | @fails _ c s r want e h s' hr _ hread =>
    dsimp only at hp
    rw [hr] at hp
    have hread' : s'.Counted (some { r with handle := h }) := hp.read hread
    exact hread'.closeQuietly c.object h
  | ends hr _ hread =>
    dsimp only at hp
    rw [hr] at hp
    exact hp.read hread
  | skips hr _ _ hread =>
    dsimp only at hp
    rw [hr] at hp
    exact hp.read hread
  | delivers hr _ hread =>
    dsimp only at hp
    rw [hr] at hp
    exact hp.read hread
  | drops hr => exact hp.closeQuietly _ _
  | leaves hr => exact hp.closeQuietly _ _

/-- Every operation leaves what was reported counted. -/
theorem counted_invariant (t : Transport σ H) (clock : Nat → Float) (observer : Option (Observer κ)) :
    Invariant (t.traced clock observer).logged fun c s => s.Counted c.range :=
  Invariant.of_acts (P := fun p => p.state.Counted p.channel.range) (fun hp h => h.counted hp) (fun _ hp _ => hp)
    (fun hp _ => hp)

end Channel

end RangeRead
