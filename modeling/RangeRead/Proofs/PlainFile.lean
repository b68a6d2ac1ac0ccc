import RangeRead.Proofs.Channel.Total
import RangeRead.Proofs.Integrity

/-!
# Channels as plain files

A `PlainFile` holds nothing but bytes, a position in them and whether it is closed. A channel over a reliable transport
answers every operation as the file of its object does (`perform_mirrors`), and so it answers every list of operations
(`run_mirrors`), however its ranges are sized and wherever they are opened.
-/

namespace RangeRead

/-- A file that is all in memory. -/
structure PlainFile where
  data : ByteArray
  position : Nat := 0
  closed : Bool := false

namespace PlainFile

/-- How many bytes there are from the position on. -/
def left (f : PlainFile) : Nat := f.data.size - f.position

/-- The next `n` bytes. -/
def next (f : PlainFile) (n : Nat) : ByteArray := f.data.extract f.position (f.position + n)

/-- The file `n` bytes further on. -/
def advance (f : PlainFile) (n : Nat) : PlainFile := { f with position := f.position + n }

/-- Reads the bytes that are due, if there is memory for them. -/
def read (memory : Nat) (n : Option Int) (f : PlainFile) : Outcome ReadError Answer × PlainFile :=
  if f.closed then (.failed .closedChannel, f)
  else if memory < due f.left n then (.failed (.bufferTooLarge (due f.left n)), f)
  else (.done (.bytes (f.next (due f.left n))), f.advance (due f.left n))

/-- Reads into a buffer, of which the rest stays as it is. -/
def readInto (buffer : ByteArray) (f : PlainFile) : Outcome ReadError Answer × PlainFile :=
  if f.closed then (.failed .closedChannel, f)
  else if buffer.size = 0 then (.done (.filled (.bytes 0) buffer), f)
  else if f.position = f.data.size then (.done (.filled .endOfStream buffer), f)
  else
    let n := min buffer.size f.left
    (.done (.filled (.bytes n) (f.next n ++ buffer.extract n buffer.size)), f.advance n)

/-- The position that is counted from the start, the position or the end. -/
def target (offset whence : Int) (f : PlainFile) : Except ReadError Int :=
  if whence = 0 then .ok offset
  else if whence = 1 then .ok (f.position + offset)
  else if whence = 2 then .ok (f.data.size + offset)
  else .error (.invalidWhence whence)

/-- Moves to a position within the bytes or at their end. -/
def seek (offset whence : Int) (f : PlainFile) : Outcome ReadError Answer × PlainFile :=
  if f.closed then (.failed .closedChannel, f)
  else
    match f.target offset whence with
    | .error e => (.failed e, f)
    | .ok target =>
      if 0 ≤ target ∧ target ≤ f.data.size then (.done (.position target), { f with position := target.toNat })
      else (.failed (.invalidPosition target f.data.size), f)

/-- Does one operation, with so much memory for new buffers. -/
def perform (memory : Nat) (operation : Operation) (f : PlainFile) : Outcome ReadError Answer × PlainFile :=
  match operation with
  | .read n => f.read memory n
  | .readAll => f.read memory none
  | .readInto buffer => f.readInto buffer
  | .seek offset whence => f.seek offset whence
  | .tell => (if f.closed then .failed .closedChannel else .done (.position f.position), f)
  | .close => (.done .closed, { f with closed := true })

/-- Does operations one after the other. -/
def run (memory : Nat) : List Operation → PlainFile → List (Outcome ReadError Answer) × PlainFile
  | [], f => ([], f)
  | operation :: operations, f =>
    let (answer, f) := f.perform memory operation
    let (answers, f) := run memory operations f
    (answer :: answers, f)

/-- Where there is memory for all the bytes, every read returns those that are due. -/
theorem read_of_size_le {memory : Nat} {f : PlainFile} (hopen : f.closed = false) (h : f.data.size ≤ memory)
    (n : Option Int) : f.read memory n = (.done (.bytes (f.next (due f.left n))), f.advance (due f.left n)) := by
  have hdue := due_le f.left n
  have hleft : f.left ≤ f.data.size := Nat.sub_le _ _
  unfold read
  rw [if_neg (by simp [hopen]), if_neg (by omega)]

/-- An unknown point of reference is refused. -/
theorem target_of_none (f : PlainFile) (offset : Int) {whence : Int} (h : Whence.ofCode? whence = none) :
    f.target offset whence = .error (.invalidWhence whence) := by
  unfold Whence.ofCode? at h
  unfold target
  split at h
  · cases h
  · rename_i h0
    split at h
    · cases h
    · rename_i h1
      split at h
      · cases h
      · rename_i h2
        rw [if_neg h0, if_neg h1, if_neg h2]

/-- The three codes stand for the start, the position and the end. -/
theorem target_of_some (f : PlainFile) (offset : Int) {whence : Int} {reference : Whence}
    (h : Whence.ofCode? whence = some reference) :
    f.target offset whence = .ok (reference.target offset f.position f.data.size) := by
  unfold Whence.ofCode? at h
  unfold target
  split at h
  · rename_i h0
    cases h
    rw [if_pos h0]
    rfl
  · rename_i h0
    split at h
    · rename_i h1
      cases h
      rw [if_neg h0, if_pos h1]
      rfl
    · rename_i h1
      split at h
      · rename_i h2
        cases h
        rw [if_neg h0, if_neg h1, if_pos h2]
        rfl
      · cases h

end PlainFile

/-- There is no recorder, or one that never refuses. -/
def Source.Accepts {σ H ρ : Type} (src : Source σ H ρ) : Prop :=
  ∀ recorder, src.recorder = some recorder → ∀ n r, ∃ u r', recorder.record n r = (.ok u, r')

namespace Channel

variable {σ H ρ : Type} {o : ObjectHandle} {data : ByteArray} {v : View σ H} {src : Source σ H ρ}

/-- A channel stands where a file of `data` does. -/
structure Mirrors (data : ByteArray) (c : Channel H) (f : PlainFile) : Prop where
  data : f.data = data
  position : c.position = f.position
  closed : c.closed = f.closed

/-! ## Reads that return -/

/-- What was delivered is accepted. -/
theorem deliverAndReport_done (haccepts : src.Accepts) {n want : Nat} {gap : Nat → Nat → ByteArray} {c c' : Channel H}
    {w : World σ ρ} {got : Filling} {s' : σ}
    (h : deliver src.transport n want gap c w.transport = (.done got, c', s')) :
    ∃ r, deliverAndReport src n want gap c w = (.done got, c', ⟨s', r⟩) := by
  have hreport : ∃ r, report src got w.recorder = (.done got, r) := by
    unfold report
    split
    · exact ⟨_, rfl⟩
    · rename_i recorder hr
      split
      · exact ⟨_, rfl⟩
      · obtain ⟨u, r', hrecord⟩ := haccepts recorder hr got.count w.recorder
        rw [hrecord]
        exact ⟨r', rfl⟩
  obtain ⟨r, hr⟩ := hreport
  refine ⟨r, ?_⟩
  unfold deliverAndReport
  rw [h]
  dsimp only
  rw [hr]

/-- With such a recorder a delivery answers as if there were none. -/
theorem deliverAndReport_answer (haccepts : src.Accepts) (n want : Nat) (gap : Nat → Nat → ByteArray) (c : Channel H)
    (w : World σ ρ) :
    (deliverAndReport src n want gap c w).1 = (deliver src.transport n want gap c w.transport).1 := by
  rcases hdeliver : deliver src.transport n want gap c w.transport with ⟨a, c', s'⟩
  cases a with
  | done got =>
    obtain ⟨r, hreport⟩ := deliverAndReport_done haccepts hdeliver
    rw [hreport]
  | failed e =>
    unfold deliverAndReport
    rw [hdeliver]
  | stalled =>
    unfold deliverAndReport
    rw [hdeliver]

theorem deliverAndReport_total (ht : src.transport.Reliable o data v) (haccepts : src.Accepts) {n want : Nat}
    (gap : Nat → Nat → ByteArray) {c : Channel H} {w : World σ ρ} (hp : Placed v o c w.transport) (hwant : 0 < want)
    (hn : 2 * o.size + 1 < n) : ∃ got c' w', deliverAndReport src n want gap c w = (.done got, c', w') := by
  obtain ⟨got, c', s', hd⟩ := deliver_total ht gap hp hwant hn
  obtain ⟨r, hreport⟩ := deliverAndReport_done haccepts hd
  exact ⟨got, c', ⟨s', r⟩, hreport⟩

theorem readInto_total (ht : src.transport.Reliable o data v) (haccepts : src.Accepts) {n : Nat} {buffer : ByteArray}
    {c : Channel H} {w : World σ ρ} (hp : Placed v o c w.transport) (hopen : c.closed = false) (hsize : 0 < buffer.size)
    (hn : 2 * o.size + 1 < n) :
    ∃ count buffer' c' w', c.readInto src n buffer w = (.done (count, buffer'), c', w') := by
  obtain ⟨got, c', w', hd⟩ := deliverAndReport_total ht haccepts buffer.extract hp hsize hn
  refine ⟨got.readCount, got.firstBytes buffer.extract buffer.size, c', w', ?_⟩
  unfold readInto
  rw [if_neg (by simp [hopen]), if_neg (by omega), hd]
  rfl

theorem read_total (ht : src.transport.Reliable o data v) (haccepts : src.Accepts) {n : Nat} {k : Option Int}
    {c : Channel H} {w : World σ ρ} (hp : Placed v o c w.transport) (hopen : c.closed = false)
    (hfits : due (o.size - c.position.toNat) k ≤ src.memory) (hn : 2 * o.size + 1 < n) :
    ∃ bytes c' w', c.read src n k w = (.done bytes, c', w') := by
  unfold read
  rw [if_neg (by simp [hopen]), asked_eq_due hp k]
  dsimp only
  split
  · exact ⟨_, _, _, rfl⟩
  · rename_i hwant
    rw [Int.toNat_natCast, Buffer.check_eq_ok_iff.mpr hfits]
    have hpos : 0 < due (o.size - c.position.toNat) k := by omega
    obtain ⟨got, c', w', hd⟩ := deliverAndReport_total ht haccepts blank hp hpos hn
    dsimp only
    rw [hd]
    exact ⟨_, _, _, rfl⟩

/-- A read that there is no memory for changes nothing. -/
theorem read_refused {n : Nat} {k : Option Int} {c : Channel H} {w : World σ ρ} (hp : Placed v o c w.transport)
    (hopen : c.closed = false) (hfits : src.memory < due (o.size - c.position.toNat) k) :
    c.read src n k w = (.failed (.bufferTooLarge (due (o.size - c.position.toNat) k)), c, w) := by
  unfold read Buffer.check
  rw [if_neg (by simp [hopen]), asked_eq_due hp k]
  dsimp only
  rw [if_neg (by omega), Int.toNat_natCast, if_pos hfits]

/-! ## What reads leave alone -/

theorem readInto_sameAs (src : Source σ H ρ) (n : Nat) (buffer : ByteArray) (c : Channel H) (w : World σ ρ) :
    SameAs (c.readInto src n buffer w).2.1 c := by
  unfold readInto
  split
  · exact .refl c
  · split
    · exact .refl c
    · dsimp only
      rw [(deliverAndReport_channel buffer.size buffer.extract c w).1]
      exact (delivers_deliver _ _ _ _ _).sameAs

theorem read_sameAs (src : Source σ H ρ) (n : Nat) (k : Option Int) (c : Channel H) (w : World σ ρ) :
    SameAs (c.read src n k w).2.1 c := by
  unfold read
  split
  · exact .refl c
  · dsimp only
    split
    · exact .refl c
    · split
      · exact .refl c
      · dsimp only
        rw [(deliverAndReport_channel _ blank c w).1]
        exact (delivers_deliver _ _ _ _ _).sameAs

/-! ## One operation -/

section Mirrors

variable (ht : src.transport.Reliable o data v) (haccepts : src.Accepts) (hsize : data.size = o.size) {n : Nat}
  (hn : 2 * o.size + 1 < n) {c : Channel H} {w : World σ ρ} {f : PlainFile} (hp : Placed v o c w.transport)
  (hm : Mirrors data c f)
include ht haccepts hsize hn hp hm

theorem read_mirrors (k : Option Int) :
    (c.read src n k w).1.map .bytes = (f.read src.memory k).1 ∧
      Mirrors data (c.read src n k w).2.1 (f.read src.memory k).2 := by
  obtain ⟨rfl, hposition, hclosed⟩ := hm
  unfold PlainFile.read
  cases hopen : f.closed with
  | true =>
    rw [if_pos rfl]
    unfold read
    rw [if_pos (hclosed.trans hopen)]
    exact ⟨rfl, rfl, hposition, hclosed⟩
  | false =>
    have hleft : f.left = o.size - c.position.toNat := by
      unfold PlainFile.left
      omega
    rw [if_neg (by simp), hleft]
    split
    · rename_i hfits
      rw [read_refused hp (hclosed.trans hopen) hfits]
      exact ⟨rfl, rfl, hposition, hclosed⟩
    · rename_i hfits
      obtain ⟨bytes, c', w', hread⟩ := read_total (k := k) ht haccepts hp (hclosed.trans hopen) (by omega) hn
      obtain ⟨⟨hbytes, hcount⟩, hnext⟩ := read_exact ht.toTruthful hp hread
      have hsame := read_sameAs src n k c w
      rw [hread] at hsame ⊢
      rw [hposition, Int.toNat_natCast] at hbytes hcount ⊢
      refine ⟨?_, rfl, ?_, hsame.closed.trans hclosed⟩
      · rw [hbytes]
        rfl
      · rw [hnext, hposition, hcount]
        rfl

theorem readInto_mirrors (buffer : ByteArray) :
    ((c.readInto src n buffer w).1.map fun filled => Answer.filled filled.1 filled.2) = (f.readInto buffer).1 ∧
      Mirrors data (c.readInto src n buffer w).2.1 (f.readInto buffer).2 := by
  have hle := hp.le_size
  obtain ⟨rfl, hposition, hclosed⟩ := hm
  have hsame := readInto_sameAs src n buffer c w
  unfold PlainFile.readInto
  cases hopen : f.closed with
  | true =>
    rw [if_pos rfl]
    unfold readInto
    rw [if_pos (hclosed.trans hopen)]
    exact ⟨rfl, rfl, hposition, hclosed⟩
  | false =>
    rw [if_neg (by simp)]
    by_cases hempty : buffer.size = 0
    · rw [if_pos hempty]
      unfold readInto
      rw [if_neg (by simp [hclosed, hopen]), if_pos hempty]
      exact ⟨rfl, rfl, hposition, hclosed⟩
    · rw [if_neg hempty]
      have hbuffer : 0 < buffer.size := Nat.pos_of_ne_zero hempty
      obtain ⟨count, buffer', c', w', hread⟩ := readInto_total ht haccepts hp (hclosed.trans hopen) hbuffer hn
      have hexact := readInto_exact ht.toTruthful hp hbuffer hread
      rw [hread] at hsame ⊢
      rw [hposition, Int.toNat_natCast] at hexact
      rcases hexact with ⟨hend, rfl, rfl, hnext⟩ | ⟨hlt, bytes, ⟨hbytes, hcount⟩, rfl, rfl, hnext⟩
      · rw [if_pos (hend.trans hsize.symm)]
        exact ⟨rfl, rfl, hnext, hsame.closed.trans hclosed⟩
      · have hleft : f.left = o.size - f.position := by
          unfold PlainFile.left
          rw [hsize]
        have hbytes' : f.next (min buffer.size (o.size - f.position)) = bytes := hbytes.symm
        rw [if_neg (by omega), hleft]
        dsimp only
        rw [hbytes']
        refine ⟨?_, rfl, ?_, hsame.closed.trans hclosed⟩
        · rw [hcount]
          rfl
        · rw [hnext, hcount]
          rfl

omit ht haccepts hn in
theorem seek_mirrors (offset whence : Int) (s : σ) :
    (Outcome.ofExcept (c.seek src.transport offset whence s).1).map .position = (f.seek offset whence).1 ∧
      Mirrors data (c.seek src.transport offset whence s).2.1 (f.seek offset whence).2 := by
  obtain ⟨rfl, hposition, hclosed⟩ := hm
  unfold seek PlainFile.seek
  cases hopen : f.closed with
  | true =>
    rw [if_pos (hclosed.trans hopen), if_pos rfl]
    exact ⟨rfl, rfl, hposition, hclosed⟩
  | false =>
    rw [if_neg (by simp [hclosed, hopen]), if_neg (by simp), hp.object, ← hsize, hposition]
    unfold resolveSeek
    cases hcode : Whence.ofCode? whence with
    | none =>
      rw [PlainFile.target_of_none f offset hcode]
      exact ⟨rfl, rfl, hposition, hclosed⟩
    | some reference =>
      rw [PlainFile.target_of_some f offset hcode]
      dsimp only
      by_cases hin : 0 ≤ reference.target offset f.position f.data.size ∧
          reference.target offset f.position f.data.size ≤ f.data.size
      · rw [if_pos hin, if_pos hin]
        obtain ⟨hsame, hmoved⟩ := moveTo_sameAs src.transport (reference.target offset f.position f.data.size) c s
        refine ⟨rfl, rfl, hmoved.trans ?_, hsame.closed.trans (hclosed.trans hopen)⟩
        dsimp only
        omega
      · rw [if_neg hin, if_neg hin]
        exact ⟨rfl, rfl, hposition, hclosed⟩

/-- Every operation is answered as the file answers it, and both move alike. -/
theorem perform_mirrors (operation : Operation) :
    (c.perform src n operation w).1 = (f.perform src.memory operation).1 ∧
      Mirrors data (c.perform src n operation w).2.1 (f.perform src.memory operation).2 := by
  cases operation with
  | read k => exact read_mirrors ht haccepts hsize hn hp hm k
  | readAll => exact read_mirrors ht haccepts hsize hn hp hm none
  | readInto buffer => exact readInto_mirrors ht haccepts hsize hn hp hm buffer
  | seek offset whence => exact seek_mirrors hsize hp hm offset whence w.transport
  | tell =>
    refine ⟨?_, hm⟩
    unfold perform tell PlainFile.perform
    rw [hm.closed, hm.position]
    cases f.closed <;> rfl
  | close =>
    refine ⟨rfl, hm.data, ?_, perform_close_closed c w⟩
    show (c.close src.transport w.transport).1.position = f.position
    unfold close
    split
    · exact hm.position
    · exact (dropRange_sameAs src.transport c w.transport).2.trans hm.position

end Mirrors

/-! ## Runs -/

/-- Every list of operations is answered as the file answers it. -/
theorem run_mirrors (ht : src.transport.Reliable o data v) (haccepts : src.Accepts) (hsize : data.size = o.size)
    {n : Nat} (hn : 2 * o.size + 1 < n) (operations : List Operation) {c : Channel H} {w : World σ ρ} {f : PlainFile}
    (hp : Placed v o c w.transport) (hm : Mirrors data c f) :
    (run src n operations c w).1 = (f.run src.memory operations).1 ∧
      Mirrors data (run src n operations c w).2.1 (f.run src.memory operations).2 := by
  induction operations generalizing c w f with
  | nil => exact ⟨rfl, hm⟩
  | cons operation operations ih =>
    obtain ⟨hanswer, hm'⟩ := perform_mirrors ht haccepts hsize hn hp hm operation
    have hp' := (placed_invariant ht.toHonest).perform hp n operation
    obtain ⟨hanswers, hm''⟩ := ih hp' hm'
    rw [run_cons]
    refine ⟨?_, hm''⟩
    rw [hanswer, hanswers]
    rfl

end Channel

end RangeRead
