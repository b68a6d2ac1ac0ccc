import RangeRead.Proofs.Bytes
import RangeRead.Proofs.Transport.Honest

/-!
# Transports with a script

`Scripted.transport data` serves the bytes of an object and follows a script, the `Turn`s that are its state: each says
of one call that it fails, or of one read that the range ends early or delivers only so much. Whatever the script says,
the transport is truthful (`Scripted.truthful`), also if fewer bytes are stored than the object should have. Once the
script is over it is reliable (`Scripted.reliable`), if all bytes are stored.
-/

namespace RangeRead.Scripted

/-- What the script says of a call. -/
inductive Turn
  /-- The call fails, whichever it is. -/
  | fails (error : ReadError)
  /-- A read tells the end of the range. -/
  | ends
  /-- A read delivers so many bytes at most, perhaps none. -/
  | delivers (most : Nat)

/-- A range: the offset of its next byte, and its end. -/
structure Span where
  cursor : Int
  stop : Int

/-- The answer to a call that is not a read. -/
def comply : List Turn → Except ReadError Unit × List Turn
  | .fails e :: turns => (.error e, turns)
  | turns => (.ok (), turns)

/-- The range after it has been pinned. -/
def Span.pinned (pin : Pin) (offset : Int) (r : Span) : Span :=
  match pin with
  | .seek => { r with cursor := offset }
  | .limit => { r with stop := offset }

/-- The stored bytes of a range, at most `most` of them. -/
def Span.bytes (r : Span) (data : ByteArray) (most : Nat) : ByteArray :=
  data.extract r.cursor.toNat (r.cursor.toNat + min most (r.stop - r.cursor).toNat)

/-- Hands out bytes of a range. -/
def send (data : ByteArray) (most : Nat) (r : Span) (turns : List Turn) : Reply × Span × List Turn :=
  (.delivered (r.bytes data most) 0, { r with cursor := r.cursor + (r.bytes data most).size }, turns)

/-- Reads a range as the script says, and all that is asked for once it is over. -/
def read (data : ByteArray) (want : Nat) (r : Span) : List Turn → Reply × Span × List Turn
  | .fails e :: turns => (.failed e, r, turns)
  | .ends :: turns => (.endOfStream .empty, r, turns)
  | .delivers most :: turns => send data (min most want) r turns
  | [] => if (r.bytes data want).size = 0 then (.endOfStream .empty, r, []) else send data want r []

/-- The transport that serves `data` and follows a script. -/
def transport (data : ByteArray) : Transport (List Turn) Span where
  openRange _ start stop turns :=
    match comply turns with
    | (.error e, turns) => (.error e, turns)
    | (.ok _, turns) => (.ok ⟨start, stop⟩, turns)
  pin pin offset r turns :=
    match comply turns with
    | (.error e, turns) => (.error e, r, turns)
    | (.ok _, turns) => (.ok (), r.pinned pin offset, turns)
  read want r turns := read data want r turns
  close _ turns := comply turns
  note _ turns := turns

/-- A range stands where it says, while the rest of the script has a property. -/
def view (P : List Turn → Prop) : View (List Turn) Span where
  idle := P
  stands r cursor stop turns := r.cursor = cursor ∧ r.stop = stop ∧ P turns

variable {P : List Turn → Prop} {o : ObjectHandle} {data : ByteArray}

/-- What holds of a script holds of the rest of it, after any turn. -/
def Lasting (P : List Turn → Prop) : Prop := ∀ {turn turns}, P (turn :: turns) → P turns

theorem comply_keeps (hP : Lasting P) {turns : List Turn} (h : P turns) : P (comply turns).2 := by
  unfold comply
  split
  · exact hP h
  · exact h

theorem Span.bytes_size_le (r : Span) (data : ByteArray) (most : Nat) :
    (r.bytes data most).size ≤ most ∧ ((r.bytes data most).size : Int) ≤ (r.stop - r.cursor).toNat := by
  unfold Span.bytes
  rw [ByteArray.size_extract]
  omega

theorem openRange_keeps (hP : Lasting P) {start stop : Int} {turns turns' : List Turn} {a : Except ReadError Span}
    (h : P turns) (heq : (transport data).openRange o start stop turns = (a, turns')) : P turns' := by
  have hrest := comply_keeps hP h
  simp only [transport] at heq
  split at heq
  · rename_i hc
    rw [hc] at hrest
    cases heq
    exact hrest
  · rename_i hc
    rw [hc] at hrest
    cases heq
    exact hrest

/-- A pin fails, or does what it should. -/
theorem pin_cases (hP : Lasting P) {pin : Pin} {offset : Int} {r r' : Span} {turns turns' : List Turn}
    {a : Except ReadError Unit} (h : P turns) (heq : (transport data).pin pin offset r turns = (a, r', turns')) :
    P turns' ∧ ((∃ e, a = .error e) ∧ r' = r ∨ a = .ok () ∧ r' = r.pinned pin offset) := by
  have hrest := comply_keeps hP h
  simp only [transport] at heq
  split at heq
  · rename_i hc
    rw [hc] at hrest
    cases heq
    exact ⟨hrest, .inl ⟨⟨_, rfl⟩, rfl⟩⟩
  · rename_i hc
    rw [hc] at hrest
    cases heq
    exact ⟨hrest, .inr ⟨rfl, rfl⟩⟩

/-- A read fails, or tells the end, or hands out bytes. -/
theorem read_cases (hP : Lasting P) {want : Nat} {r r' : Span} {turns turns' : List Turn} {reply : Reply} (h : P turns)
    (heq : (transport data).read want r turns = (reply, r', turns')) :
    P turns' ∧ ((∃ e, reply = .failed e) ∧ r' = r ∨ reply = .endOfStream .empty ∧ r' = r ∨
      ∃ most ≤ want, reply = .delivered (r.bytes data most) 0 ∧
        r' = { r with cursor := r.cursor + (r.bytes data most).size }) := by
  simp only [transport, read] at heq
  split at heq
  · cases heq
    exact ⟨hP h, .inl ⟨⟨_, rfl⟩, rfl⟩⟩
  · cases heq
    exact ⟨hP h, .inr (.inl ⟨rfl, rfl⟩)⟩
  · cases heq
    exact ⟨hP h, .inr (.inr ⟨_, Nat.min_le_right _ _, rfl, rfl⟩)⟩
  · split at heq
    · cases heq
      exact ⟨h, .inr (.inl ⟨rfl, rfl⟩)⟩
    · cases heq
      exact ⟨h, .inr (.inr ⟨_, Nat.le_refl _, rfl, rfl⟩)⟩

/-- The transport counts what it is asked for, whatever the script and the range are. -/
theorem counts (data : ByteArray) : (transport data).Counts := by
  intro want r turns bytes excess r' turns' heq
  obtain ⟨-, ⟨⟨_, hr⟩, -⟩ | ⟨hr, -⟩ | ⟨most, hmost, hr, -⟩⟩ :=
    read_cases (P := fun _ => True) (fun _ => trivial) trivial heq
  · cases hr
  · cases hr
  · cases hr
    obtain ⟨hsize, -⟩ := r.bytes_size_le data most
    omega

/-- The transport is truthful whatever the script says. -/
theorem truthful (hP : Lasting P) (o : ObjectHandle) (data : ByteArray) :
    (transport data).Truthful o data (view P) where
  note_idle _ hs := hs
  note_stands _ hs := hs
  opened {start stop s h s'} hs _ heq := by
    exact ⟨h.cursor, h.stop, rfl, rfl, openRange_keeps hP hs heq⟩
  refused hs _ heq := openRange_keeps hP hs heq
  sought hs heq := by
    obtain ⟨rfl, rfl, hturns⟩ := hs
    obtain ⟨hrest, ⟨⟨_, ha⟩, -⟩ | ⟨-, rfl⟩⟩ := pin_cases hP hturns heq
    · cases ha
    · exact ⟨rfl, rfl, hrest⟩
  limited hs heq := by
    obtain ⟨rfl, rfl, hturns⟩ := hs
    obtain ⟨hrest, ⟨⟨_, ha⟩, -⟩ | ⟨-, rfl⟩⟩ := pin_cases hP hturns heq
    · cases ha
    · exact ⟨rfl, rfl, hrest⟩
  notPinned hs heq := by
    obtain ⟨rfl, rfl, hturns⟩ := hs
    obtain ⟨hrest, -⟩ := pin_cases hP hturns heq
    exact ⟨_, _, rfl, rfl, hrest⟩
  failed hs _ heq := by
    obtain ⟨rfl, rfl, hturns⟩ := hs
    obtain ⟨hrest, -⟩ := read_cases hP hturns heq
    exact ⟨_, _, rfl, rfl, hrest⟩
  ended hs _ heq := by
    obtain ⟨rfl, rfl, hturns⟩ := hs
    obtain ⟨hrest, ⟨⟨_, hr⟩, -⟩ | ⟨-, rfl⟩ | ⟨_, _, hr, -⟩⟩ := read_cases hP hturns heq
    · cases hr
    · exact ⟨rfl, rfl, hrest⟩
    · cases hr
  reports {h cursor stop s want bytes excess h' s'} hs hw heq := by
    obtain ⟨rfl, rfl, hturns⟩ := hs
    obtain ⟨-, ⟨⟨_, hr⟩, -⟩ | ⟨hr, -⟩ | ⟨most, hmost, hr, -⟩⟩ := read_cases hP hturns heq
    · cases hr
    · cases hr
    · cases hr
      have hle := hw.le
      have hsize := h.bytes_size_le data most
      omega
  delivered hs _ heq := by
    obtain ⟨rfl, rfl, hturns⟩ := hs
    obtain ⟨hrest, ⟨⟨_, hr⟩, -⟩ | ⟨hr, -⟩ | ⟨most, hmost, hr, rfl⟩⟩ := read_cases hP hturns heq
    · cases hr
    · cases hr
    · cases hr
      exact ⟨congrArg (_ + ·) (Int.add_zero _).symm, rfl, hrest⟩
  close hs := comply_keeps hP hs.2.2
  writes hs hw heq := by
    obtain ⟨rfl, rfl, hturns⟩ := hs
    obtain ⟨-, ⟨⟨_, hr⟩, -⟩ | ⟨hr, -⟩ | ⟨most, hmost, hr, -⟩⟩ := read_cases hP hturns heq
    · cases hr
    · cases hr
    · cases hr
      exact ⟨rfl, (extract_to_end _ _ _).symm⟩
  writes_nothing hs _ heq := by
    obtain ⟨rfl, rfl, hturns⟩ := hs
    obtain ⟨-, ⟨⟨_, hr⟩, -⟩ | ⟨hr, -⟩ | ⟨_, _, hr, -⟩⟩ := read_cases hP hturns heq
    · cases hr
    · cases hr
      rfl
    · cases hr

theorem lasting_over : Lasting fun turns => turns = [] := fun h => by cases h

/-- Once the script is over a read hands out what is wanted and stored, or tells the end where nothing is. -/
theorem read_over (data : ByteArray) (want : Nat) (r : Span) : (transport data).read want r [] =
    if (r.bytes data want).size = 0 then (.endOfStream .empty, r, []) else send data want r [] := rfl

/-- Once the script is over the transport is reliable, if it stores as many bytes as the object has. -/
theorem reliable (hsize : data.size = o.size) : (transport data).Reliable o data (view fun turns => turns = []) where
  toTruthful := truthful lasting_over o data
  opens hs _ := by
    obtain rfl := hs
    exact ⟨_, _, rfl⟩
  reads {h cursor stop s want} hs hw hlt hwant := by
    obtain ⟨rfl, rfl, rfl⟩ := hs
    have hpos : 0 < (h.bytes data want).size := by
      have h0 := hw.nonneg
      have hle := hw.le_size
      unfold Span.bytes
      rw [ByteArray.size_extract]
      omega
    rw [read_over, if_neg (by omega)]
    exact ⟨h.bytes data want, _, [], rfl, hpos⟩
  ends {h stop s want} hs _ _ := by
    obtain ⟨hcursor, rfl, rfl⟩ := hs
    have hnone : (h.bytes data want).size = 0 := by
      have hsize := h.bytes_size_le data want
      omega
    rw [read_over, if_pos hnone]
    exact ⟨h, [], rfl⟩

end RangeRead.Scripted
