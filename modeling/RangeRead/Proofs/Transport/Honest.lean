import RangeRead.Proofs.Channel.Loop

/-!
# What is asked of a transport

A `View` says where the open range of a transport stands: at a cursor, and before the end that it was limited to. A
transport is `Transport.Honest` about an object if every range stands where it was sought to and moves on by what it
reports, which is never more than it was asked for and never leads past its end. Any call may fail, and a range may
tell its end or deliver nothing at any time.

That no read reports more than it was asked for, or less than nothing, is all that `Transport.Counts` asks.

An honest transport is `Transport.Truthful` if what a range writes are the bytes of the object from its cursor on. It is
`Transport.Reliable` if moreover no range is refused, no read fails, and a range tells its end exactly there.
-/

namespace RangeRead

variable {σ H : Type}

/-- The ranges that may be asked of an object. -/
structure ObjectHandle.Window (o : ObjectHandle) (start stop : Int) : Prop where
  nonneg : 0 ≤ start
  le : start ≤ stop
  le_size : stop ≤ o.size

instance (o : ObjectHandle) (start stop : Int) : Decidable (o.Window start stop) :=
  decidable_of_iff (0 ≤ start ∧ start ≤ stop ∧ stop ≤ o.size)
    ⟨fun ⟨h0, hle, hsize⟩ => ⟨h0, hle, hsize⟩, fun h => ⟨h.nonneg, h.le, h.le_size⟩⟩

/-- The window of what is left of a range that has been read for `n` bytes. -/
theorem ObjectHandle.Window.advance {o : ObjectHandle} {cursor stop n : Int} (h : o.Window cursor stop) (hn : 0 ≤ n)
    (hle : cursor + n ≤ stop) : o.Window (cursor + n) stop where
  nonneg := by
    have h0 := h.nonneg
    omega
  le := hle
  le_size := h.le_size

/-- What the state of a transport says about the range that is open. -/
structure View (σ H : Type) where
  /-- No range is open. -/
  idle : σ → Prop
  /-- The range that is open stands at a cursor and ends before another offset. -/
  stands : H → Int → Int → σ → Prop

/-- What a view says where the range of a channel is `range`. -/
def View.Holds (v : View σ H) (o : ObjectHandle) : Option (OpenRange H) → σ → Prop
  | none, s => v.idle s
  | some r, s => v.stands r.handle r.cursor r.stop s ∧ o.Window r.cursor r.stop

/-- No read reports less than nothing, or more bytes than were wanted. -/
def Transport.Counts (t : Transport σ H) : Prop :=
  ∀ {want h s bytes excess h' s'}, t.read want h s = (.delivered bytes excess, h', s') →
    0 ≤ bytes.size + excess ∧ bytes.size + excess ≤ want

/-- Ranges stand where they were sought to and move by what they report, within their ends. -/
structure Transport.Honest (t : Transport σ H) (o : ObjectHandle) (v : View σ H) : Prop where
  note_idle : ∀ {s} (notice : Notice), v.idle s → v.idle (t.note notice s)
  note_stands : ∀ {h cursor stop s} (notice : Notice), v.stands h cursor stop s →
    v.stands h cursor stop (t.note notice s)
  opened : ∀ {start stop s h s'}, v.idle s → o.Window start stop → t.openRange o start stop s = (.ok h, s') →
    ∃ cursor stop, v.stands h cursor stop s'
  refused : ∀ {start stop s e s'}, v.idle s → o.Window start stop → t.openRange o start stop s = (.error e, s') →
    v.idle s'
  sought : ∀ {h cursor stop s offset u h' s'}, v.stands h cursor stop s →
    t.pin .seek offset h s = (.ok u, h', s') → v.stands h' offset stop s'
  limited : ∀ {h cursor stop s offset u h' s'}, v.stands h cursor stop s →
    t.pin .limit offset h s = (.ok u, h', s') → v.stands h' cursor offset s'
  notPinned : ∀ {h cursor stop s pin offset e h' s'}, v.stands h cursor stop s →
    t.pin pin offset h s = (.error e, h', s') → ∃ cursor stop, v.stands h' cursor stop s'
  failed : ∀ {h cursor stop s want e h' s'}, v.stands h cursor stop s → o.Window cursor stop →
    t.read want h s = (.failed e, h', s') → ∃ cursor stop, v.stands h' cursor stop s'
  ended : ∀ {h cursor stop s want bytes h' s'}, v.stands h cursor stop s → o.Window cursor stop →
    t.read want h s = (.endOfStream bytes, h', s') → v.stands h' cursor stop s'
  reports : ∀ {h cursor stop s want bytes excess h' s'}, v.stands h cursor stop s → o.Window cursor stop →
    t.read want h s = (.delivered bytes excess, h', s') →
      0 ≤ bytes.size + excess ∧ bytes.size + excess ≤ want ∧ cursor + (bytes.size + excess) ≤ stop
  delivered : ∀ {h cursor stop s want bytes excess h' s'}, v.stands h cursor stop s → o.Window cursor stop →
    t.read want h s = (.delivered bytes excess, h', s') → v.stands h' (cursor + (bytes.size + excess)) stop s'
  close : ∀ {h cursor stop s}, v.stands h cursor stop s → v.idle (t.close h s).2

/-- Ranges write exactly the bytes that they report, and these are the bytes of the object. -/
structure Transport.Truthful (t : Transport σ H) (o : ObjectHandle) (data : ByteArray) (v : View σ H) : Prop
    extends t.Honest o v where
  writes : ∀ {h cursor stop s want bytes excess h' s'}, v.stands h cursor stop s → o.Window cursor stop →
    t.read want h s = (.delivered bytes excess, h', s') →
      excess = 0 ∧ bytes = data.extract cursor.toNat (cursor.toNat + bytes.size)
  writes_nothing : ∀ {h cursor stop s want bytes h' s'}, v.stands h cursor stop s → o.Window cursor stop →
    t.read want h s = (.endOfStream bytes, h', s') → bytes = .empty

/-- Nothing fails, and a range tells its end exactly there. -/
structure Transport.Reliable (t : Transport σ H) (o : ObjectHandle) (data : ByteArray) (v : View σ H) : Prop
    extends t.Truthful o data v where
  opens : ∀ {start stop s}, v.idle s → o.Window start stop → ∃ h s', t.openPinned o start stop s = (.ok h, s')
  reads : ∀ {h cursor stop s want}, v.stands h cursor stop s → o.Window cursor stop → cursor < stop → 0 < want →
    ∃ bytes h' s', t.read want h s = (.delivered bytes 0, h', s') ∧ 0 < bytes.size
  ends : ∀ {h stop s want}, v.stands h stop stop s → o.Window stop stop → 0 < want →
    ∃ h' s', t.read want h s = (.endOfStream .empty, h', s')

namespace Transport.Honest

variable {t : Transport σ H} {o : ObjectHandle} {v : View σ H} (ht : t.Honest o v)
include ht

theorem closeQuietly {h : H} {cursor stop : Int} {s : σ} (object : ObjectHandle) (hs : v.stands h cursor stop s) :
    v.idle (t.closeQuietly object h s) :=
  Channel.closeQuietly_keeps ht.note_idle (ht.close hs)

/-- A range that has been opened and pinned stands at the start of its window. -/
theorem openPinned_ok {start stop : Int} {s s' : σ} {h : H} (hs : v.idle s) (hw : o.Window start stop)
    (heq : t.openPinned o start stop s = (.ok h, s')) : v.stands h start stop s' := by
  cases Opens.of_eq heq with
  | opened hopen hseek hlimit =>
    obtain ⟨cursor, limit, hopened⟩ := ht.opened hs hw hopen
    have hsought := ht.sought hopened hseek
    exact ht.note_stands _ (ht.limited hsought hlimit)

/-- No range is open after one has been refused or could not be pinned. -/
theorem openPinned_error {start stop : Int} {s s' : σ} {e : ReadError} (hs : v.idle s) (hw : o.Window start stop)
    (heq : t.openPinned o start stop s = (.error e, s')) : v.idle s' := by
  cases Opens.of_eq heq with
  | refused hopen => exact ht.refused hs hw hopen
  | notSought hopen hseek =>
    obtain ⟨cursor, limit, hopened⟩ := ht.opened hs hw hopen
    obtain ⟨cursor, limit, hleft⟩ := ht.notPinned hopened hseek
    exact ht.closeQuietly _ hleft
  | notLimited hopen hseek hlimit =>
    obtain ⟨cursor, limit, hopened⟩ := ht.opened hs hw hopen
    obtain ⟨cursor, limit, hleft⟩ := ht.notPinned (ht.sought hopened hseek) hlimit
    exact ht.closeQuietly _ hleft

end Transport.Honest

end RangeRead
