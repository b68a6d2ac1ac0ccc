import Mathlib
import RangeRead.Proofs.Trace.Opening

/-!
# Traces that are faithful

A trace is faithful to the calls that a log has taken down if its records are the ranges that were asked for since the
trace was last cleared, in order, each with the bytes that have been pulled from it (`Traced.Faithful`). A range that is
open knows its own record, or that it has been cleared away (`Traced.Links`). Every action of a channel keeps both, and
so does clearing the trace (`faithful_invariant`, `Faithful.clear`).
-/

namespace RangeRead

/-! ## Bytes that are pulled -/

namespace Call

/-- How many bytes a call pulled from the range with a number. -/
def pulled (number : Nat) : Call → Int
  | read m _ (.delivered bytes excess) => if m = number then bytes.size + excess else 0
  | read _ _ (.failed _) | read _ _ (.endOfStream _) | refused .. | opened .. | pinned .. | closed .. => 0

/-- How many bytes calls pulled from it, the sum of what its reads reported. -/
def pulledBy (number : Nat) (calls : List Call) : Int := (calls.map (pulled number)).sum

@[simp] theorem pulledBy_append (number : Nat) (calls more : List Call) :
    pulledBy number (calls ++ more) = pulledBy number calls + pulledBy number more := by
  simp [pulledBy]

/-- Bytes are pulled by calls about the range only. -/
theorem pulled_of_ne {call : Call} {number : Nat} (h : call.number? ≠ some number) : call.pulled number = 0 := by
  cases call with
  | read m want reply =>
    cases reply with
    | delivered bytes excess => exact if_neg fun hm => h (congrArg some hm)
    | failed _ => rfl
    | endOfStream _ => rfl
  | refused _ _ _ => rfl
  | opened _ _ _ => rfl
  | pinned _ _ _ _ => rfl
  | closed _ _ => rfl

theorem pulledBy_of_forall {calls : List Call} {number : Nat} (h : ∀ call ∈ calls, call.pulled number = 0) :
    pulledBy number calls = 0 := by
  induction calls with
  | nil => rfl
  | cons call calls ih =>
    rw [List.forall_mem_cons] at h
    have hrest := ih h.2
    unfold pulledBy at hrest ⊢
    rw [List.map_cons, List.sum_cons, hrest, h.1]
    rfl

theorem Pins.pulled {call : Call} {m : Nat} (h : call.Pins m) (number : Nat) : call.pulled number = 0 := by
  obtain ⟨_, _, _, rfl⟩ := h
  rfl

/-- A range that has not been opened yet has not been read. -/
theorem Numbering.pulledBy_new {opened : Nat} {calls : List Call} (h : Numbering opened calls) :
    pulledBy opened calls = 0 := by
  refine pulledBy_of_forall fun call hcall => pulled_of_ne fun hnumber => ?_
  exact absurd (h.number_lt call hcall opened hnumber) (Nat.lt_irrefl _)

/-- Only one of the ranges that were asked for got a number. -/
theorem Numbering.index_unique {opened : Nat} {calls : List Call} (h : Numbering opened calls) {i j number : Nat}
    {opening opening' : Opening} (hi : (openings calls)[i]? = some opening) (hj : (openings calls)[j]? = some opening')
    (hnumber : opening.number = some number) (hnumber' : opening'.number = some number) : i = j := by
  obtain ⟨hi', rfl⟩ := List.getElem?_eq_some_iff.mp hi
  obtain ⟨hj', rfl⟩ := List.getElem?_eq_some_iff.mp hj
  rcases Nat.lt_trichotomy i j with hlt | heq | hlt
  · exact absurd hnumber' (List.pairwise_iff_getElem.mp h.once i j hi' hj' hlt number hnumber)
  · exact heq
  · exact absurd hnumber (List.pairwise_iff_getElem.mp h.once j i hj' hi' hlt number hnumber')

end Call

namespace Opening

/-- How many bytes calls pulled from a range; none from one that was refused. -/
def pulled (calls : List Call) (opening : Opening) : Int :=
  match opening.number with
  | none => 0
  | some number => Call.pulledBy number calls

/-- How many bytes were asked for. -/
def size (opening : Opening) : Int := opening.stop - opening.start

/-- A record tells of a range of the object at the path, and of what the calls have pulled from it. -/
structure Recorded (path : String) (calls : List Call) (opening : Opening) (record : RequestRecord) : Prop where
  path_eq : record.path = path
  start_eq : record.start = opening.start
  length_eq : record.length = opening.size
  stop_eq : record.stop = opening.stop
  bytesRead_eq : record.bytesRead = opening.pulled calls

namespace Recorded

variable {path : String} {calls calls' : List Call} {opening : Opening} {record : RequestRecord}
  (h : opening.Recorded path calls record)
include h

/-- A record stays right while nothing is pulled from its range. -/
theorem keeps (hpulled : opening.pulled calls' = opening.pulled calls) : opening.Recorded path calls' record :=
  { h with bytesRead_eq := h.bytesRead_eq.trans hpulled.symm }

/-- It stays right if what is pulled is added to it. -/
theorem pulls {count : Int} (hpulled : opening.pulled calls' = opening.pulled calls + count) :
    opening.Recorded path calls' { record with bytesRead := record.bytesRead + count } :=
  { h with bytesRead_eq := by rw [hpulled, h.bytesRead_eq] }

end Recorded

/-- Calls from which nothing is pulled make no difference. -/
theorem pulled_quiet {calls more : List Call} (h : ∀ number, Call.pulledBy number more = 0) (opening : Opening) :
    opening.pulled (calls ++ more) = opening.pulled calls := by
  unfold pulled
  cases opening.number with
  | none => rfl
  | some number => simp [h number]

/-- A read counts for its own range. -/
theorem pulled_read (calls : List Call) (number want : Nat) (bytes : ByteArray) (excess : Int) (opening : Opening) :
    opening.pulled (calls ++ [.read number want (.delivered bytes excess)]) =
      opening.pulled calls + if opening.number = some number then bytes.size + excess else 0 := by
  unfold pulled
  cases opening.number with
  | none => simp
  | some m =>
    by_cases hm : number = m
    · simp [Call.pulledBy, Call.pulled, hm]
    · have hm' : ¬m = number := fun h => hm h.symm
      simp [Call.pulledBy, Call.pulled, hm, hm']

end Opening

/-! ## Records of a trace -/

namespace RequestTrace

@[simp] theorem updateBytesRead_cleared (trace : RequestTrace) (serial : Nat) (f : Int → Int) :
    (trace.updateBytesRead serial f).cleared = trace.cleared := by
  unfold updateBytesRead
  split <;> rfl

@[simp] theorem updateBytesRead_length (trace : RequestTrace) (serial : Nat) (f : Int → Int) :
    (trace.updateBytesRead serial f).requests.length = trace.requests.length := by
  unfold updateBytesRead
  split
  · rfl
  · simp

/-- Only the record with the serial number is changed. -/
theorem updateBytesRead_getElem? (trace : RequestTrace) (serial : Nat) (f : Int → Int) (i : Nat) :
    (trace.updateBytesRead serial f).requests[i]? = trace.requests[i]?.map fun r =>
      if serial = trace.cleared + i then { r with bytesRead := f r.bytesRead } else r := by
  unfold updateBytesRead
  split
  · have hne : serial ≠ trace.cleared + i := by omega
    simp [hne]
  · have hiff : serial - trace.cleared = i ↔ serial = trace.cleared + i := by omega
    simp [List.getElem?_modify, hiff]

end RequestTrace

/-! ## Faithful traces -/

namespace Traced

variable {σ H κ : Type}

/-- The records of a trace are the ranges that were asked for behind the calls `old`, of objects at the path. -/
structure Faithful (path : String) (old : List Call) (s : Traced (Logged σ) κ) : Prop where
  before : old <+: s.behind.calls
  cleared : s.trace.cleared = (Call.openings old).length
  numbering : Call.Numbering s.behind.opened s.behind.calls
  length : s.trace.cleared + s.trace.requests.length = (Call.openings s.behind.calls).length
  recorded : ∀ i record, s.trace.requests[i]? = some record →
    ∃ opening, (Call.openings s.behind.calls)[s.trace.cleared + i]? = some opening ∧
      opening.Recorded path s.behind.calls record

/-- The serial number of a range is its place among the ranges that were asked for. -/
def Links (h : TracedRange (Numbered H)) (s : Traced (Logged σ) κ) : Prop :=
  ∃ opening, (Call.openings s.behind.calls)[h.serial]? = some opening ∧ opening.number = some h.behind.number

/-- Calls that ask for nothing do not change the link. -/
theorem Links.of_calls {h h' : TracedRange (Numbered H)} {s s' : Traced (Logged σ) κ} (hlinks : Links h s)
    {more : List Call} (hcalls : s'.behind.calls = s.behind.calls ++ more) (hserial : h'.serial = h.serial)
    (hnumber : h'.behind.number = h.behind.number) : Links h' s' := by
  obtain ⟨opening, hopening, heq⟩ := hlinks
  refine ⟨opening, ?_, by rw [hnumber, heq]⟩
  obtain ⟨hlt, -⟩ := List.getElem?_eq_some_iff.mp hopening
  rw [hserial, hcalls, Call.openings_append, List.getElem?_append_left hlt]
  exact hopening

namespace Faithful

variable {path : String} {old : List Call} {s s' : Traced (Logged σ) κ} (h : s.Faithful path old)
include h

/-- The records are those of the calls behind the old ones, in order. -/
theorem requests : ∃ made, s.behind.calls = old ++ made ∧
    List.Forall₂ (Opening.Recorded path s.behind.calls) (Call.openings made) s.trace.requests := by
  obtain ⟨made, hmade⟩ := h.before
  have hlength := h.length
  rw [h.cleared, ← hmade, Call.openings_append, List.length_append] at hlength
  refine ⟨made, hmade.symm, List.forall₂_iff_get.mpr ⟨by omega, fun i hi hi' => ?_⟩⟩
  obtain ⟨opening, hopening, hrecorded⟩ := h.recorded i _ (List.getElem?_eq_getElem hi')
  rw [h.cleared, ← hmade, Call.openings_append, List.getElem?_append_right (Nat.le_add_right _ _),
    Nat.add_sub_cancel_left, List.getElem?_eq_getElem hi] at hopening
  cases hopening
  exact hrecorded

/-- Clearing the trace starts anew behind the calls so far. -/
theorem clear : Faithful path s.behind.calls { s with trace := s.trace.clear } where
  before := List.prefix_rfl
  cleared := h.length
  numbering := h.numbering
  length := h.length
  recorded i record hrecord := by
    cases hrecord

/-- Calls that neither ask for a range nor pull bytes leave the trace faithful. -/
theorem quiet {more : List Call} (htrace : s'.trace = s.trace) (hcalls : s'.behind.calls = s.behind.calls ++ more)
    (hnumbering : Call.Numbering s'.behind.opened s'.behind.calls) (hopenings : Call.openings more = [])
    (hpulled : ∀ number, Call.pulledBy number more = 0) : s'.Faithful path old := by
  have hsame : Call.openings s'.behind.calls = Call.openings s.behind.calls := by
    rw [hcalls, Call.openings_append, hopenings, List.append_nil]
  refine ⟨?_, ?_, hnumbering, ?_, fun i record hrecord => ?_⟩
  · rw [hcalls]
    exact h.before.trans (List.prefix_append _ _)
  · rw [htrace]
    exact h.cleared
  · rw [htrace, hsame]
    exact h.length
  · rw [htrace] at hrecord ⊢
    obtain ⟨opening, hopening, hrecorded⟩ := h.recorded i record hrecord
    rw [hsame, hcalls]
    exact ⟨opening, hopening, hrecorded.keeps (Opening.pulled_quiet hpulled opening)⟩

/-- A range that is asked for gets the next record. -/
theorem asked {observer : Option (Observer κ)} {o : ObjectHandle} {start stop : Int} {record : RequestRecord}
    {shown : Except ReadError Unit} {made : List Call} {number : Option Nat}
    (hrecords : Records observer o start stop s s' record shown) (hpath : o.path = path)
    (hcalls : s'.behind.calls = s.behind.calls ++ made)
    (hnumbering : Call.Numbering s'.behind.opened s'.behind.calls)
    (hopenings : Call.openings made = [⟨number, start, stop⟩]) (hpulled : ∀ m, Call.pulledBy m made = 0)
    (hnew : ∀ m, number = some m → Call.pulledBy m s.behind.calls = 0) : s'.Faithful path old := by
  have hsnoc : Call.openings s'.behind.calls = Call.openings s.behind.calls ++ [⟨number, start, stop⟩] := by
    rw [hcalls, Call.openings_append, hopenings]
  have hcleared : s'.trace.cleared = s.trace.cleared := by rw [hrecords.trace_eq]; rfl
  have hrequests : s'.trace.requests = s.trace.requests ++ [record] := by rw [hrecords.trace_eq]; rfl
  have hquiet := @Opening.pulled_quiet s.behind.calls made hpulled
  refine ⟨?_, ?_, hnumbering, ?_, fun i record' hrecord' => ?_⟩
  · rw [hcalls]
    exact h.before.trans (List.prefix_append _ _)
  · rw [hcleared]
    exact h.cleared
  · rw [hcleared, hrequests, hsnoc, List.length_append, List.length_append, ← h.length]
    rfl
  · rw [hrequests] at hrecord'
    rw [hcleared, hsnoc, hcalls]
    rcases Nat.lt_trichotomy i s.trace.requests.length with hlt | heq | hgt
    · rw [List.getElem?_append_left hlt] at hrecord'
      obtain ⟨opening, hopening, hrecorded⟩ := h.recorded i record' hrecord'
      obtain ⟨hbound, -⟩ := List.getElem?_eq_some_iff.mp hopening
      rw [List.getElem?_append_left hbound]
      exact ⟨opening, hopening, hrecorded.keeps (hquiet opening)⟩
    · subst heq
      rw [List.getElem?_concat_length] at hrecord'
      cases hrecord'
      refine ⟨⟨number, start, stop⟩, ?_, hrecords.path_eq.trans hpath, hrecords.start_eq, hrecords.length_eq, ?_, ?_⟩
      · rw [h.length, List.getElem?_concat_length]
      · show record.start + record.length = stop
        rw [hrecords.start_eq, hrecords.length_eq]
        omega
      · rw [hquiet, hrecords.bytesRead_eq]
        unfold Opening.pulled
        cases number with
        | none => rfl
        | some m => exact (hnew m rfl).symm
    · rw [List.getElem?_eq_none (by simp; omega)] at hrecord'
      cases hrecord'

/-- What is pulled from a range is counted in its own record, unless that has been cleared away. -/
theorem read {r : TracedRange (Numbered H)} {want : Nat} {reply : Reply} (hlinks : Links r s)
    (hcalls : s'.behind.calls = s.behind.calls ++ [.read r.behind.number want reply])
    (hnumbering : Call.Numbering s'.behind.opened s'.behind.calls)
    (htrace : s'.trace = Transport.counted r.serial reply s.trace) : s'.Faithful path old := by
  cases reply with
  | failed e => exact h.quiet htrace hcalls hnumbering rfl fun _ => rfl
  | endOfStream bytes => exact h.quiet htrace hcalls hnumbering rfl fun _ => rfl
  | delivered bytes excess =>
    have hcounted : s'.trace = s.trace.updateBytesRead r.serial (· + (bytes.size + excess)) := htrace
    have hsame : Call.openings s'.behind.calls = Call.openings s.behind.calls := by
      rw [hcalls, Call.openings_append]
      exact List.append_nil _
    obtain ⟨linked, hlinked, hnumber⟩ := hlinks
    refine ⟨?_, ?_, hnumbering, ?_, fun i record' hrecord' => ?_⟩
    · rw [hcalls]
      exact h.before.trans (List.prefix_append _ _)
    · rw [hcounted, RequestTrace.updateBytesRead_cleared]
      exact h.cleared
    · rw [hcounted, RequestTrace.updateBytesRead_cleared, RequestTrace.updateBytesRead_length, hsame]
      exact h.length
    · rw [hcounted, RequestTrace.updateBytesRead_getElem?, Option.map_eq_some_iff] at hrecord'
      obtain ⟨record, hrecord, rfl⟩ := hrecord'
      obtain ⟨opening, hopening, hrecorded⟩ := h.recorded i record hrecord
      rw [hcounted, RequestTrace.updateBytesRead_cleared, hsame, hcalls]
      refine ⟨opening, hopening, ?_⟩
      have hpulled := Opening.pulled_read s.behind.calls r.behind.number want bytes excess opening
      by_cases hserial : r.serial = s.trace.cleared + i
      · rw [if_pos hserial]
        rw [hserial, hopening] at hlinked
        cases hlinked
        rw [if_pos hnumber] at hpulled
        exact hrecorded.pulls hpulled
      · rw [if_neg hserial]
        have hother : opening.number ≠ some r.behind.number := fun hsame' =>
          hserial (h.numbering.index_unique hlinked hopening hnumber hsame')
        rw [if_neg hother, Int.add_zero] at hpulled
        exact hrecorded.keeps hpulled

end Faithful

/-! ## Calls through a trace -/

section Calls

variable {t : Transport σ H} {clock : Nat → Float} {observer : Option (Observer κ)} {o : ObjectHandle}
  {old : List Call} {s s' : Traced (Logged σ) κ}

theorem Links.lt {h : TracedRange (Numbered H)} (hlinks : Links h s)
    (hnumbering : Call.Numbering s.behind.opened s.behind.calls) : h.behind.number < s.behind.opened := by
  obtain ⟨opening, hopening, hnumber⟩ := hlinks
  exact hnumbering.opening_lt (List.mem_of_getElem? hopening) hnumber

/-- An opening leaves the trace faithful, and the range that it opened linked. -/
theorem Faithful.openPinned (h : s.Faithful o.path old) {start stop : Int}
    {a : Except ReadError (TracedRange (Numbered H))} (hopens : TracedOpens observer o start stop s a s') :
    s'.Faithful o.path old ∧ ∀ r, a = .ok r → Links r s' := by
  have hpinned : ∀ {pins : List Call}, (∀ call ∈ pins, call.Pins s.behind.opened) →
      Call.openings (.opened s.behind.opened start stop :: pins) = [⟨some s.behind.opened, start, stop⟩] ∧
        ∀ m, Call.pulledBy m (.opened s.behind.opened start stop :: pins) = 0 := by
    intro pins hpins
    have hnone := Call.openings_uses fun call hcall => (hpins call hcall).uses
    refine ⟨congrArg (_ :: ·) hnone, fun m => Call.pulledBy_of_forall ?_⟩
    rw [List.forall_mem_cons]
    exact ⟨rfl, fun call hcall => (hpins call hcall).pulled m⟩
  have hnew : ∀ m, some s.behind.opened = some m → Call.pulledBy m s.behind.calls = 0 := by
    intro m hm
    cases hm
    exact h.numbering.pulledBy_new
  cases hopens with
  | @refused record shown error e _ hrecords hopened hcalls =>
    refine ⟨h.asked hrecords rfl hcalls ?_ rfl (fun _ => rfl) nofun, nofun⟩
    rw [hcalls, hopened]
    exact h.numbering.snoc_refused start stop error
  | @abandoned record error e _ hrecords hopened hcalls =>
    refine ⟨h.asked hrecords rfl hcalls ?_ rfl (fun _ => rfl) hnew, nofun⟩
    rw [hcalls, hopened]
    exact h.numbering.snoc_opened start stop
  | @notPinned record pins answer e _ hrecords hopened hpins hcalls =>
    obtain ⟨hopenings, hpulled⟩ := hpinned hpins
    rw [List.append_assoc] at hcalls
    refine ⟨h.asked hrecords rfl hcalls ?_ ?_ (fun m => ?_) hnew, nofun⟩
    · rw [hcalls, hopened, ← List.append_assoc]
      exact (h.numbering.append_pinned start stop hpins).snoc rfl rfl (Nat.lt_succ_self _)
    · rw [Call.openings_append, hopenings]
      rfl
    · rw [Call.pulledBy_append, hpulled]
      rfl
  | @opened record pins r _ hrecords hopened hpins hcalls hnumber hserial =>
    obtain ⟨hopenings, hpulled⟩ := hpinned hpins
    refine ⟨h.asked hrecords rfl hcalls ?_ hopenings hpulled hnew, fun r' hr' => ?_⟩
    · rw [hcalls, hopened]
      exact h.numbering.append_pinned start stop hpins
    · cases hr'
      refine ⟨⟨some s.behind.opened, start, stop⟩, ?_, by rw [hnumber]⟩
      rw [hcalls, Call.openings_append, hopenings, hserial, h.length, List.getElem?_concat_length]

theorem Faithful.readTraced {path : String} (h : s.Faithful path old) {want : Nat} {r r' : TracedRange (Numbered H)}
    {reply : Reply} (hlinks : Links r s)
    (hread : (t.logged.traced clock observer).read want r s = (reply, r', s')) :
    s'.Faithful path old ∧ Links r' s' := by
  obtain ⟨hbehind, hserial, -, htrace⟩ := Transport.traced_read hread
  obtain ⟨hnumber, hopened, hcalls⟩ := Transport.logged_read hbehind
  refine ⟨h.read hlinks hcalls ?_ htrace, hlinks.of_calls hcalls hserial hnumber⟩
  rw [hcalls, hopened]
  exact h.numbering.snoc rfl rfl (hlinks.lt h.numbering)

theorem Faithful.closeQuietly {path : String} (h : s.Faithful path old) {r : TracedRange (Numbered H)}
    (hlinks : Links r s) (o : ObjectHandle) :
    ((t.logged.traced clock observer).closeQuietly o r s).Faithful path old := by
  obtain ⟨answer, hopened, hcalls⟩ := @Transport.logged_closeQuietly _ _ t o r.behind s.behind
  rw [Transport.traced_closeQuietly]
  refine h.quiet rfl hcalls ?_ rfl fun _ => rfl
  dsimp only
  rw [hcalls, hopened]
  exact h.numbering.snoc rfl rfl (hlinks.lt h.numbering)

end Calls

end Traced

/-! ## Channels -/

namespace Channel

variable {σ H κ : Type} {t : Transport σ H} {clock : Nat → Float} {observer : Option (Observer κ)} {path : String}
  {old : List Call}

/-- The trace is faithful in the middle of an operation on an object at the path, and the open range is linked. -/
structure Phase.Traced (path : String) (old : List Call) (p : Phase (Traced (Logged σ) κ) (TracedRange (Numbered H))) :
    Prop where
  path_eq : p.channel.object.path = path
  faithful : p.state.Faithful path old
  links : ∀ r, p.channel.range = some r → RangeRead.Traced.Links r.handle p.state

/-- Every action keeps the trace faithful. -/
theorem Acts.traced {p q : Phase (Traced (Logged σ) κ) (TracedRange (Numbered H))}
    (h : Acts (t.logged.traced clock observer) p q) (hp : p.Traced path old) : q.Traced path old := by
  obtain ⟨rfl, hfaithful, hlinks⟩ := hp
  cases h with
  | notes notice =>
    obtain ⟨hbefore, hcleared, hnumbering, hlength, hrecorded⟩ := hfaithful
    exact ⟨rfl, ⟨hbefore, hcleared, hnumbering, hlength, hrecorded⟩, hlinks⟩
  | refused hr hopen =>
    exact ⟨rfl, (hfaithful.openPinned (TracedOpens.of_eq hopen)).1, fun r hsome => by rw [hr] at hsome; cases hsome⟩
  | opens hr hopen =>
    obtain ⟨hopened, hlinked⟩ := hfaithful.openPinned (TracedOpens.of_eq hopen)
    refine ⟨rfl, hopened, fun r hsome => ?_⟩
    cases hsome
    exact hlinked _ rfl
  | fails hr _ hread =>
    obtain ⟨hread, hlinked⟩ := hfaithful.readTraced (hlinks _ hr) hread
    exact ⟨rfl, hread.closeQuietly hlinked _, nofun⟩
  | ends hr _ hread =>
    obtain ⟨hread, hlinked⟩ := hfaithful.readTraced (hlinks _ hr) hread
    refine ⟨rfl, hread, fun r hsome => ?_⟩
    cases hsome
    exact hlinked
  | skips hr _ _ hread =>
    obtain ⟨hread, hlinked⟩ := hfaithful.readTraced (hlinks _ hr) hread
    refine ⟨rfl, hread, fun r hsome => ?_⟩
    cases hsome
    exact hlinked
  | delivers hr _ hread =>
    obtain ⟨hread, hlinked⟩ := hfaithful.readTraced (hlinks _ hr) hread
    refine ⟨rfl, hread, fun r hsome => ?_⟩
    cases hsome
    exact hlinked
  | drops hr => exact ⟨rfl, hfaithful.closeQuietly (hlinks _ hr) _, nofun⟩
  | leaves hr => exact ⟨rfl, hfaithful.closeQuietly (hlinks _ hr) _, nofun⟩

/-- Every operation keeps the trace faithful. -/
theorem traced_invariant (t : Transport σ H) (clock : Nat → Float) (observer : Option (Observer κ)) (path : String)
    (old : List Call) :
    Invariant (t.logged.traced clock observer) fun c s => Phase.Traced path old ⟨false, c, s⟩ :=
  Invariant.of_acts (fun hp h => h.traced hp) (fun _ hp _ => ⟨hp.path_eq, hp.faithful, hp.links⟩)
    (fun hp _ => ⟨hp.path_eq, hp.faithful, hp.links⟩)

end Channel

end RangeRead
