import RangeRead.Proofs.PlainFile
import RangeRead.Proofs.Protocol
import RangeRead.Proofs.Transport.LogHonest

/-!
# Operations that fail

A read that fails in its transport, wherever that happens, leaves the channel open at the position where it was, with
no range open and every range closed, and reports nothing; whatever is asked once the transport works gets the answers
of a file at that position (`RolledBack`). A seek that fails changes nothing at all. So it is in every state that a
channel comes to (`failures_atomic`).
-/

namespace RangeRead

/-- Whether an operation reads. -/
def Operation.isRead : Operation → Bool
  | read _ | readAll | readInto _ => true
  | seek _ _ | tell | close => false

namespace Channel

variable {σ H ρ : Type}

/-- How many bytes an operation needs memory for. -/
def newBuffer (operation : Operation) (c : Channel H) : Int :=
  match operation with
  | .read n => c.asked n
  | .readAll => c.asked none
  | .readInto _ | .seek _ _ | .tell | .close => 0

/-- A read of an open channel fails because of the transport: there is memory for it, and it fails without a recorder as
well. -/
structure FailsInTransport (src : Source σ H ρ) (n : Nat) (operation : Operation) (c : Channel H) (w : World σ ρ)
    (e : ReadError) : Prop where
  isOpen : c.closed = false
  isRead : operation.isRead = true
  fits : c.newBuffer operation ≤ src.memory
  fails : (c.perform { src with recorder := none } n operation w).1 = .failed e

theorem eq_failed_of_map {α β : Type} {a : Outcome ReadError α} {f : α → β} {e : ReadError}
    (h : a.map f = .failed e) : a = .failed e := by
  cases a with
  | done x => cases h
  | failed e' =>
    cases h
    rfl
  | stalled => cases h

/-- Without a recorder only the delivery fails, and with one it fails alike. -/
theorem deliverAndReport_failed {src : Source σ H ρ} {n want : Nat} {gap : Nat → Nat → ByteArray} {c : Channel H}
    {w : World σ ρ} {e : ReadError}
    (h : (deliverAndReport { src with recorder := none } n want gap c w).1 = .failed e) :
    ∃ c' s', deliver src.transport n want gap c w.transport = (.failed e, c', s') ∧
      deliverAndReport src n want gap c w = (.failed e, c', { w with transport := s' }) := by
  unfold deliverAndReport at h ⊢
  dsimp only at h
  rcases hd : deliver src.transport n want gap c w.transport with ⟨answer, c', s'⟩
  rw [hd] at h
  cases answer with
  | done got => cases h
  | failed e' =>
    cases h
    exact ⟨c', s', rfl, rfl⟩
  | stalled => cases h

theorem readInto_failsInTransport {src : Source σ H ρ} {n : Nat} {buffer : ByteArray} {c : Channel H} {w : World σ ρ}
    {e : ReadError} (hopen : c.closed = false)
    (h : (c.readInto { src with recorder := none } n buffer w).1 = .failed e) :
    ∃ want gap c' s', deliver src.transport n want gap c w.transport = (.failed e, c', s') ∧
      c.readInto src n buffer w = (.failed e, c', { w with transport := s' }) := by
  unfold readInto at h ⊢
  rw [if_neg (by simp [hopen])] at h ⊢
  by_cases hempty : buffer.size = 0
  · rw [if_pos hempty] at h
    cases h
  · rw [if_neg hempty] at h ⊢
    obtain ⟨c', s', hd, hreport⟩ := deliverAndReport_failed (eq_failed_of_map h)
    rw [hreport]
    exact ⟨_, _, c', s', hd, rfl⟩

theorem read_failsInTransport {src : Source σ H ρ} {n : Nat} {k : Option Int} {c : Channel H} {w : World σ ρ}
    {e : ReadError} (hopen : c.closed = false) (hfits : c.asked k ≤ src.memory)
    (h : (c.read { src with recorder := none } n k w).1 = .failed e) :
    ∃ want gap c' s', deliver src.transport n want gap c w.transport = (.failed e, c', s') ∧
      c.read src n k w = (.failed e, c', { w with transport := s' }) := by
  unfold read at h ⊢
  rw [if_neg (by simp [hopen])] at h ⊢
  dsimp only at h ⊢
  by_cases hnone : c.asked k ≤ 0
  · rw [if_pos hnone] at h
    cases h
  · have hcheck : Buffer.check src.memory (c.asked k).toNat = .ok () := Buffer.check_eq_ok_iff.mpr (by omega)
    rw [if_neg hnone, hcheck] at h ⊢
    dsimp only at h ⊢
    obtain ⟨c', s', hd, hreport⟩ := deliverAndReport_failed (eq_failed_of_map h)
    rw [hreport]
    exact ⟨_, _, c', s', hd, rfl⟩

/-- Such a read is a delivery that fails. -/
theorem FailsInTransport.deliver {src : Source σ H ρ} {n : Nat} {operation : Operation} {c : Channel H} {w : World σ ρ}
    {e : ReadError} (h : FailsInTransport src n operation c w e) :
    ∃ want gap c' s', Channel.deliver src.transport n want gap c w.transport = (.failed e, c', s') ∧
      c.perform src n operation w = (.failed e, c', { w with transport := s' }) := by
  obtain ⟨hopen, hread, hfits, hfails⟩ := h
  have hmapped : ∀ {α : Type} {f : α → Answer} {answer : Outcome ReadError α × Channel H × World σ ρ} {c' s'},
      answer = (.failed e, c', s') → (answer.1.map f, answer.2) = (.failed e, c', s') := by
    intro α f answer c' s' h
    rw [h]
    rfl
  cases operation with
  | read k =>
    obtain ⟨want, gap, c', s', hd, hr⟩ := read_failsInTransport hopen hfits (eq_failed_of_map hfails)
    exact ⟨want, gap, c', s', hd, hmapped hr⟩
  | readAll =>
    obtain ⟨want, gap, c', s', hd, hr⟩ := read_failsInTransport (k := none) hopen hfits (eq_failed_of_map hfails)
    exact ⟨want, gap, c', s', hd, hmapped hr⟩
  | readInto buffer =>
    obtain ⟨want, gap, c', s', hd, hr⟩ := readInto_failsInTransport hopen (eq_failed_of_map hfails)
    exact ⟨want, gap, c', s', hd, hmapped hr⟩
  | seek offset whence => cases hread
  | tell => cases hread
  | close => cases hread

/-! ## Rolling back -/

variable {t : Transport σ H} {o : ObjectHandle} {v : View σ H} {recorder : Option (Recorder ρ)} {memory : Nat}

/-- The channel `c'` and its world `w'` after a read of `c` that failed. -/
structure RolledBack (t : Transport σ H) (o : ObjectHandle) (c : Channel (Numbered H)) (w : World (Logged σ) ρ)
    (c' : Channel (Numbered H)) (w' : World (Logged σ) ρ) : Prop where
  isOpen : c'.closed = false
  position : c'.position = c.position
  noRange : c'.range = none
  allClosed : AllClosed w'.transport.calls
  /-- Nothing has been reported. -/
  recorder : w'.recorder = w.recorder
  /-- Once the transport works, whatever it has been through, a file at the old position says what every operation
  answers. So does the read that has failed. -/
  retry : ∀ {v data recorder memory n w''}, t.Reliable o data v → data.size = o.size → v.idle w''.transport.behind →
    Source.Accepts (⟨t.logged, recorder, memory⟩ : Source (Logged σ) (Numbered H) ρ) → 2 * o.size + 1 < n →
    ∀ operations, (run ⟨t.logged, recorder, memory⟩ n operations c' w'').1 =
      (PlainFile.run memory operations { data := data, position := c.position.toNat }).1

/-- What fails leaves nothing behind. -/
structure Atomic (src : Source (Logged σ) (Numbered H) ρ) (t : Transport σ H) (o : ObjectHandle)
    (c : Channel (Numbered H)) (w : World (Logged σ) ρ) : Prop where
  read : ∀ {n operation e}, FailsInTransport src n operation c w e →
    (c.perform src n operation w).1 = .failed e ∧
      RolledBack t o c w (c.perform src n operation w).2.1 (c.perform src n operation w).2.2
  /-- A seek that fails changes nothing. -/
  seek : ∀ {n offset whence e}, (c.perform src n (.seek offset whence) w).1 = .failed e →
    (c.perform src n (.seek offset whence) w).2 = (c, w)

theorem seek_failed {src : Source σ H ρ} {n : Nat} {offset whence : Int} {c : Channel H} {w : World σ ρ} {e : ReadError}
    (h : (c.perform src n (.seek offset whence) w).1 = .failed e) :
    (c.perform src n (.seek offset whence) w).2 = (c, w) := by
  unfold perform seek at h ⊢
  dsimp only at h ⊢
  split at h
  · rename_i hclosed
    rw [if_pos hclosed]
  · rename_i hopen
    rw [if_neg hopen]
    cases htarget : resolveSeek offset whence c.position c.object.size with
    | error e' => rfl
    | ok target =>
      rw [htarget] at h
      cases h

/-- **Failures are atomic**, over every honest transport and in every state that a channel comes to. -/
theorem failures_atomic (ht : t.Honest o v) {s : σ} (hidle : v.idle s) {r : ρ} {c : Channel (Numbered H)}
    {w : World (Logged σ) ρ} (h : Reached ⟨t.logged, recorder, memory⟩ o ⟨.start s, r⟩ c w) :
    Atomic ⟨t.logged, recorder, memory⟩ t o c w := by
  refine ⟨fun {n operation e} hfails => ?_, fun hfails => seek_failed hfails⟩
  obtain ⟨want, gap, c', s', hd, hperform⟩ := hfails.deliver
  have hafter := h.step n operation
  rw [hperform] at hafter ⊢
  have hdelivers := Delivers.of_eq hd
  obtain ⟨hrange, hposition⟩ := hdelivers.of_failed
  have hclosed : c'.closed = false := hdelivers.sameAs.closed.trans hfails.isOpen
  have hsettled := settled_of_none (reached_custody hafter) hrange
  refine ⟨rfl, hclosed, hposition, hrange, hsettled.2, rfl, ?_⟩
  intro v' data recorder' memory' m w'' hreliable hsize hworks haccepts hm operations
  have hp : Placed v.logged o c' s' :=
    (placed_invariant ht.logged).reached (fun _ hnew ho => hnew.placed ho hidle) hafter
  have hp' : Placed v'.logged o c' w''.transport :=
    ⟨hp.object, hp.nonneg, hp.le_size, by rw [hrange]; exact hworks⟩
  have hmirrors : Mirrors data c' { data := data, position := c.position.toNat } := by
    have h0 := hp.nonneg
    refine ⟨rfl, ?_, hclosed⟩
    rw [← hposition]
    show c'.position = (c'.position.toNat : Nat)
    omega
  exact (run_mirrors hreliable.logged haccepts hsize hm operations hp' hmirrors).1

/-- So it is where a range fails when one of two bytes has come. Its script is over then, and both bytes come. -/
theorem failures_atomic_scripted :
    let object : ObjectHandle := { path := "object", size := 4 }
    let t := Scripted.transport ⟨#[1, 2, 3, 4]⟩
    let src : Source (Logged (List Scripted.Turn)) (Numbered Scripted.Span) Unit := ⟨t.logged, none, 4⟩
    let script : List Scripted.Turn := [.delivers 1, .fails .closedRange]
    let failed := (simple object .standard).perform src 9 (.read (some 2)) ⟨.start script, ()⟩
    failed.1 = .failed .closedRange ∧ failed.2.1.position = 0 ∧
      (run src 10 [.read (some 2)] failed.2.1 failed.2.2).1 = [.done (.bytes ⟨#[1, 2]⟩)] := by
  have ht := Scripted.truthful (P := fun _ => True) (fun _ => trivial) { path := "object", size := 4 } ⟨#[1, 2, 3, 4]⟩
  have hnew : IsNew (simple { path := "object", size := 4 } .standard : Channel (Numbered Scripted.Span)) := .simple _ _
  have hfails : FailsInTransport ⟨(Scripted.transport ⟨#[1, 2, 3, 4]⟩).logged, none, 4⟩ 9 (.read (some 2))
      (simple { path := "object", size := 4 } .standard) ⟨.start [.delivers 1, .fails .closedRange], ()⟩ .closedRange :=
    ⟨rfl, rfl, by decide, rfl⟩
  obtain ⟨hfailed, hback⟩ := (failures_atomic ht.toHonest trivial (.new hnew rfl)).read hfails
  refine ⟨hfailed, hback.position, ?_⟩
  refine (hback.retry (Scripted.reliable rfl) rfl ?_ (fun _ h => by cases h) (by decide) [.read (some 2)]).trans rfl
  rfl

end Channel

end RangeRead
