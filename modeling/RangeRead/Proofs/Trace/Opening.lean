import RangeRead.Proofs.Transport.Openings
import RangeRead.Trace.Transport

/-!
# Opening traced ranges

Opening a range through a traced transport records it and shows the record to the observer, whether or not the range
was opened behind (`Traced.Records`). With a log behind the trace an opening comes out in one of four ways
(`TracedOpens.of_eq`): the range is refused, or it is opened and its record is refused, or it cannot be pinned and is
closed, or it is open. In the second way nothing is done with the range any more.
-/

namespace RangeRead

variable {σ H κ : Type} {t : Transport σ H} {clock : Nat → Float} {observer : Option (Observer κ)} {o : ObjectHandle}

/-- From `s` to `s'` a range that was asked for is recorded, and its record is shown with the answer `shown`. -/
structure Traced.Records (observer : Option (Observer κ)) (o : ObjectHandle) (start stop : Int) (s s' : Traced σ κ)
    (record : RequestRecord) (shown : Except ReadError Unit) : Prop where
  path_eq : record.path = o.path
  start_eq : record.start = start
  length_eq : record.length = stop - start
  bytesRead_eq : record.bytesRead = 0
  trace_eq : s'.trace = (s.trace.add record).2
  shown_eq : Transport.showRecord observer record s.observer = (shown, s'.observer)

/-- What comes after without a change of the trace or the observer makes no difference. -/
theorem Traced.Records.of_eq {start stop : Int} {s s₁ s' : Traced σ κ} {record : RequestRecord}
    {shown : Except ReadError Unit} (h : Traced.Records observer o start stop s s₁ record shown)
    (htrace : s'.trace = s₁.trace) (hobserver : s'.observer = s₁.observer) :
    Traced.Records observer o start stop s s' record shown where
  path_eq := h.path_eq
  start_eq := h.start_eq
  length_eq := h.length_eq
  bytesRead_eq := h.bytesRead_eq
  trace_eq := htrace.trans h.trace_eq
  shown_eq := by rw [hobserver]; exact h.shown_eq

namespace Transport

/-! ## Calls through a trace -/

/-- The record of a range that is asked for after so many readings of the clock. -/
def requested (clock : Nat → Float) (o : ObjectHandle) (start stop : Int) (readings : Nat) : RequestRecord where
  path := o.path
  start := start
  length := stop - start
  timestamp := clock readings
  duration := some (clock (readings + 1) - clock readings)

/-- An opening succeeds if the range was opened behind and its record was accepted. -/
theorem traced_openRange {start stop : Int} {s s' : Traced σ κ} {a : Except ReadError (TracedRange H)}
    (h : (t.traced clock observer).openRange o start stop s = (a, s')) :
    ∃ shown opened, Traced.Records observer o start stop s s' (requested clock o start stop s.readings) shown ∧
      t.openRange o start stop s.behind = (opened, s'.behind) ∧
      ((∃ e, opened = .error e) ∧ (∃ e, a = .error e) ∨
        (∃ b, opened = .ok b) ∧ (∃ e, shown = .error e) ∧ (∃ e, a = .error e) ∨
        ∃ b, opened = .ok b ∧ shown = .ok () ∧ a = .ok ⟨b, s.trace.cleared + s.trace.requests.length⟩) := by
  have hopen : t.openTraced clock observer o start stop s = (a, s') := h
  unfold openTraced at hopen
  rcases hopened : t.openRange o start stop s.behind with ⟨opened, state⟩
  rcases hshown : showRecord observer (requested clock o start stop s.readings) s.observer with ⟨shown, k⟩
  rw [hopened] at hopen
  dsimp only at hopen
  unfold requested at hshown
  rw [hshown] at hopen
  refine ⟨shown, opened, ?_⟩
  cases shown with
  | error e =>
    cases hopen
    refine ⟨⟨rfl, rfl, rfl, rfl, rfl, hshown⟩, rfl, ?_⟩
    cases opened with
    | error e' => exact .inl ⟨⟨e', rfl⟩, e, rfl⟩
    | ok b => exact .inr (.inl ⟨⟨b, rfl⟩, ⟨e, rfl⟩, e, rfl⟩)
  | ok u =>
    cases opened with
    | error e' =>
      cases hopen
      exact ⟨⟨rfl, rfl, rfl, rfl, rfl, hshown⟩, rfl, .inl ⟨⟨e', rfl⟩, e', rfl⟩⟩
    | ok b =>
      cases hopen
      exact ⟨⟨rfl, rfl, rfl, rfl, rfl, hshown⟩, rfl, .inr (.inr ⟨b, rfl, rfl, rfl⟩)⟩

theorem traced_pin {pin : Pin} {offset : Int} {r r' : TracedRange H} {s s' : Traced σ κ} {a : Except ReadError Unit}
    (h : (t.traced clock observer).pin pin offset r s = (a, r', s')) :
    t.pin pin offset r.behind s.behind = (a, r'.behind, s'.behind) ∧ r'.serial = r.serial ∧ s'.trace = s.trace ∧
      s'.observer = s.observer := by
  cases h
  exact ⟨rfl, rfl, rfl, rfl⟩

/-- The trace after a read of the range with the serial number: what was delivered is counted. -/
def counted (serial : Nat) (reply : Reply) (trace : RequestTrace) : RequestTrace :=
  match reply with
  | .delivered bytes excess => trace.updateBytesRead serial (· + (bytes.size + excess))
  | .failed _ | .endOfStream _ => trace

/-- A read is passed on, and what it delivers is counted in the record of its range. -/
theorem traced_read {want : Nat} {r r' : TracedRange H} {s s' : Traced σ κ} {reply : Reply}
    (h : (t.traced clock observer).read want r s = (reply, r', s')) :
    t.read want r.behind s.behind = (reply, r'.behind, s'.behind) ∧ r'.serial = r.serial ∧
      s'.observer = s.observer ∧ s'.trace = counted r.serial reply s.trace := by
  have hread : t.readTraced want r s = (reply, r', s') := h
  unfold readTraced at hread
  rcases hbehind : t.read want r.behind s.behind with ⟨reply', b, state⟩
  rw [hbehind] at hread
  cases reply' with
  | failed e =>
    cases hread
    exact ⟨rfl, rfl, rfl, rfl⟩
  | endOfStream bytes =>
    cases hread
    exact ⟨rfl, rfl, rfl, rfl⟩
  | delivered bytes excess =>
    cases hread
    exact ⟨rfl, rfl, rfl, rfl⟩

/-- Closing a range leaves the trace and the observer as they are. -/
theorem traced_closeQuietly (r : TracedRange H) (s : Traced σ κ) :
    (t.traced clock observer).closeQuietly o r s = { s with behind := t.closeQuietly o r.behind s.behind } := by
  have hclose : (t.traced clock observer).close r s =
      ((t.close r.behind s.behind).1, { s with behind := (t.close r.behind s.behind).2 }) := rfl
  unfold closeQuietly
  rw [hclose]
  rcases t.close r.behind s.behind with ⟨e | u, state⟩
  · rfl
  · rfl

end Transport

/-! ## Openings -/

/-- `TracedOpens observer o start stop s a s'`: opening and pinning a range through a trace over a log comes out as
`a`. -/
inductive TracedOpens (observer : Option (Observer κ)) (o : ObjectHandle) (start stop : Int)
    (s : Traced (Logged σ) κ) : Except ReadError (TracedRange (Numbered H)) → Traced (Logged σ) κ → Prop
  | refused {record shown error e s'} (hrecords : Traced.Records observer o start stop s s' record shown)
      (hopened : s'.behind.opened = s.behind.opened)
      (hcalls : s'.behind.calls = s.behind.calls ++ [.refused start stop error]) :
      TracedOpens observer o start stop s (.error e) s'
  /-- The range was opened, but its record was refused. -/
  | abandoned {record error e s'} (hrecords : Traced.Records observer o start stop s s' record (.error error))
      (hopened : s'.behind.opened = s.behind.opened + 1)
      (hcalls : s'.behind.calls = s.behind.calls ++ [.opened s.behind.opened start stop]) :
      TracedOpens observer o start stop s (.error e) s'
  | notPinned {record pins answer e s'} (hrecords : Traced.Records observer o start stop s s' record (.ok ()))
      (hopened : s'.behind.opened = s.behind.opened + 1) (hpins : ∀ call ∈ pins, call.Pins s.behind.opened)
      (hcalls : s'.behind.calls =
        s.behind.calls ++ .opened s.behind.opened start stop :: pins ++ [.closed s.behind.opened answer]) :
      TracedOpens observer o start stop s (.error e) s'
  | opened {record pins h s'} (hrecords : Traced.Records observer o start stop s s' record (.ok ()))
      (hopened : s'.behind.opened = s.behind.opened + 1) (hpins : ∀ call ∈ pins, call.Pins s.behind.opened)
      (hcalls : s'.behind.calls = s.behind.calls ++ .opened s.behind.opened start stop :: pins)
      (hnumber : h.behind.number = s.behind.opened)
      (hserial : h.serial = s.trace.cleared + s.trace.requests.length) :
      TracedOpens observer o start stop s (.ok h) s'

/-! ## Pins -/

/-- The range `h` has been opened through a trace over a log, and these pins of it have been tried. -/
structure Traced.Pinned (observer : Option (Observer κ)) (o : ObjectHandle) (start stop : Int)
    (s s' : Traced (Logged σ) κ) (pins : List Call) (h : TracedRange (Numbered H)) : Prop where
  records : ∃ record, Traced.Records observer o start stop s s' record (.ok ())
  opened : s'.behind.opened = s.behind.opened + 1
  only : ∀ call ∈ pins, call.Pins s.behind.opened
  calls : s'.behind.calls = s.behind.calls ++ .opened s.behind.opened start stop :: pins
  number : h.behind.number = s.behind.opened
  serial : h.serial = s.trace.cleared + s.trace.requests.length

/-- A range that was opened has not been pinned yet. -/
theorem Transport.traced_opened {start stop : Int} {s s' : Traced (Logged σ) κ} {h : TracedRange (Numbered H)}
    (heq : (t.logged.traced clock observer).openRange o start stop s = (.ok h, s')) :
    Traced.Pinned observer o start stop s s' [] h := by
  obtain ⟨shown, opened, hrecords, hbehind, hout⟩ := traced_openRange heq
  rcases hout with ⟨-, e, he⟩ | ⟨-, -, e, he⟩ | ⟨b, rfl, rfl, hok⟩
  · cases he
  · cases he
  · cases hok
    obtain ⟨hnumber, hopened, hcalls⟩ := logged_openRange_ok hbehind
    exact ⟨⟨_, hrecords⟩, hopened, fun _ hmem => by simp at hmem, hcalls, hnumber, rfl⟩

namespace Traced.Pinned

variable {start stop : Int} {s s₁ s' : Traced (Logged σ) κ} {pins : List Call} {h h' : TracedRange (Numbered H)}

/-- A pin is tried, whether or not it succeeds. -/
theorem pin (hpinned : Traced.Pinned observer o start stop s s₁ pins h) {pin : Pin} {offset : Int}
    {a : Except ReadError Unit} (heq : (t.logged.traced clock observer).pin pin offset h s₁ = (a, h', s')) :
    Traced.Pinned observer o start stop s s' (pins ++ [.pinned s.behind.opened pin offset a]) h' := by
  obtain ⟨⟨record, hrecords⟩, hopened, hpins, hcalls, hnumber, hserial⟩ := hpinned
  obtain ⟨hbehind, hserial', htrace, hobserver⟩ := Transport.traced_pin heq
  obtain ⟨hnumber', hopened', hcalls'⟩ := Transport.logged_pin hbehind
  refine ⟨⟨record, hrecords.of_eq htrace hobserver⟩, hopened'.trans hopened, ?_, ?_, hnumber'.trans hnumber,
    hserial'.trans hserial⟩
  · intro call hcall
    rw [List.mem_append, List.mem_singleton] at hcall
    rcases hcall with hcall | rfl
    · exact hpins call hcall
    · exact ⟨_, _, _, rfl⟩
  · rw [hcalls', hcalls, hnumber, List.append_assoc, List.cons_append]

/-- A range that could not be pinned is closed. -/
theorem closeQuietly (hpinned : Traced.Pinned observer o start stop s s₁ pins h) (e : ReadError) :
    TracedOpens (H := H) observer o start stop s (.error e)
      ((t.logged.traced clock observer).closeQuietly o h s₁) := by
  obtain ⟨⟨record, hrecords⟩, hopened, hpins, hcalls, hnumber, -⟩ := hpinned
  obtain ⟨answer, hopened', hcalls'⟩ := @Transport.logged_closeQuietly _ _ t o h.behind s₁.behind
  rw [hcalls, hnumber] at hcalls'
  rw [Transport.traced_closeQuietly]
  exact .notPinned (hrecords.of_eq rfl rfl) (hopened'.trans hopened) hpins hcalls'

end Traced.Pinned

theorem TracedOpens.of_eq {start stop : Int} {s s' : Traced (Logged σ) κ}
    {a : Except ReadError (TracedRange (Numbered H))}
    (heq : (t.logged.traced clock observer).openPinned o start stop s = (a, s')) :
    TracedOpens observer o start stop s a s' := by
  cases Opens.of_eq heq with
  | refused hopen =>
    obtain ⟨shown, opened, hrecords, hbehind, hout⟩ := Transport.traced_openRange hopen
    rcases hout with ⟨⟨error, rfl⟩, -⟩ | ⟨⟨b, rfl⟩, ⟨error, rfl⟩, -⟩ | ⟨b, -, -, hok⟩
    · obtain ⟨hopened, hcalls⟩ := Transport.logged_openRange_error hbehind
      exact .refused hrecords hopened hcalls
    · obtain ⟨-, hopened, hcalls⟩ := Transport.logged_openRange_ok hbehind
      exact .abandoned hrecords hopened hcalls
    · cases hok
  | notSought hopen hseek => exact ((Transport.traced_opened hopen).pin hseek).closeQuietly _
  | notLimited hopen hseek hlimit => exact (((Transport.traced_opened hopen).pin hseek).pin hlimit).closeQuietly _
  | opened hopen hseek hlimit =>
    obtain ⟨⟨record, hrecords⟩, hopened, hpins, hcalls, hnumber, hserial⟩ :=
      ((Transport.traced_opened hopen).pin hseek).pin hlimit
    exact .opened (hrecords.of_eq rfl rfl) hopened hpins hcalls hnumber hserial

end RangeRead
