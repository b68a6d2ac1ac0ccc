import RangeRead.Trace
import RangeRead.Transport

/-!
# Traced transports

`Transport.traced` makes a transport that records every range that is opened through another one, also those that
could not be opened, and counts what is pulled from each. An observer, if there is one, is shown every new record;
if it refuses with an error, the opening fails with that error.

`Transport.paused` makes one that pauses before every range that is opened; it counts the pauses. Where pausing is
refused no range is opened.
-/

namespace RangeRead

/-- Someone who is shown every new record. -/
structure Observer (κ : Type) where
  onRequest : RequestRecord → κ → Except ReadError Unit × κ

/-- The state of a traced transport: that of the transport behind it, the trace, the state of the observer, and how
often the clock has been read. -/
structure Traced (σ κ : Type) where
  behind : σ
  trace : RequestTrace := {}
  observer : κ
  readings : Nat := 0

/-- A range whose bytes are counted in the record with the serial number. -/
structure TracedRange (H : Type) where
  behind : H
  serial : Nat

namespace Transport

variable {σ H κ : Type}

/-- Shows a record to the observer. -/
def showRecord (observer : Option (Observer κ)) (r : RequestRecord) (k : κ) : Except ReadError Unit × κ :=
  match observer with
  | none => (.ok (), k)
  | some observer => observer.onRequest r k

/-- Opens a range through the transport behind, records it and shows the record. The clock is read before and after
the opening. -/
def openTraced (t : Transport σ H) (clock : Nat → Float) (observer : Option (Observer κ)) (object : ObjectHandle)
    (start stop : Int) (s : Traced σ κ) : Except ReadError (TracedRange H) × Traced σ κ :=
  let (opened, behind) := t.openRange object start stop s.behind
  let began := clock s.readings
  let record : RequestRecord :=
    { path := object.path
      start := start
      length := stop - start
      timestamp := began
      duration := some (clock (s.readings + 1) - began) }
  let (serial, trace) := s.trace.add record
  let (shown, k) := showRecord observer record s.observer
  let s : Traced σ κ := { behind := behind, trace := trace, observer := k, readings := s.readings + 2 }
  match shown, opened with
  | .error e, _ => (.error e, s)
  | .ok _, .error e => (.error e, s)
  | .ok _, .ok h => (.ok ⟨h, serial⟩, s)

/-- Reads from a range behind and counts what it delivers. -/
def readTraced (t : Transport σ H) (want : Nat) (h : TracedRange H) (s : Traced σ κ) :
    Reply × TracedRange H × Traced σ κ :=
  let (reply, behind, state) := t.read want h.behind s.behind
  let s := { s with behind := state }
  let h := { h with behind := behind }
  match reply with
  | .delivered bytes excess =>
    (.delivered bytes excess, h,
      { s with trace := s.trace.updateBytesRead h.serial (· + (bytes.size + excess)) })
  | reply => (reply, h, s)

/-- The transport that records the ranges opened through another. `clock` gives the readings of the clock. -/
def traced (t : Transport σ H) (clock : Nat → Float) (observer : Option (Observer κ)) :
    Transport (Traced σ κ) (TracedRange H) where
  openRange := openTraced t clock observer
  pin pin offset h s :=
    let (answer, behind, state) := t.pin pin offset h.behind s.behind
    (answer, { h with behind := behind }, { s with behind := state })
  read := readTraced t
  close h s :=
    let (answer, state) := t.close h.behind s.behind
    (answer, { s with behind := state })
  note notice s := { s with behind := t.note notice s.behind }

/-- The transport behind a traced one, used past the trace. -/
def untraced (t : Transport σ H) : Transport (Traced σ κ) H :=
  t.within Traced.behind fun state s => { s with behind := state }

end Transport

/-! ## Pauses -/

/-- The state of a transport that pauses. -/
structure Paused (σ : Type) where
  behind : σ
  /-- How many pauses there were. -/
  pauses : Nat := 0

/-- The transport that pauses before it opens a range through another. If the pause is refused the opening fails. -/
def Transport.paused {σ H : Type} (t : Transport σ H) (refusal : Option Fault) : Transport (Paused σ) H :=
  { t.within Paused.behind fun state s => { s with behind := state } with
    openRange := fun object start stop s =>
      match refusal with
      | some fault => (.error (.outside fault), s)
      | none =>
        let (answer, state) := t.openRange object start stop s.behind
        (answer, ⟨state, s.pauses + 1⟩) }

end RangeRead
