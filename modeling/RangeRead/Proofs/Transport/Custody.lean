import RangeRead.Proofs.Channel.Course

/-!
# Custody of ranges

A `Custody` says, of the state of a transport, that no range is held (`idle`), that a range has just been opened and
pinned (`fresh`), and that a range is held that has been read (`held`). A transport keeps it (`Transport.Keeps`) if
opening leads from `idle` to `fresh` or fails and leaves `idle`, reading leads to `held`, and closing back to `idle`,
whether or not the close succeeds.

Whatever a transport keeps in this sense, every channel keeps with every action (`acts`): between operations the
transport is `idle` if the channel has no range and `held` if it has one (`custody_invariant`).
-/

namespace RangeRead

variable {σ H ρ : Type}

/-- What is known of a transport before, at and after the opening of a range. -/
structure Custody (σ H : Type) where
  idle : σ → Prop
  fresh : H → σ → Prop
  held : H → σ → Prop

/-- What is known while the range of a channel is `range`. -/
def Custody.Of (k : Custody σ H) : Option (OpenRange H) → σ → Prop
  | none, s => k.idle s
  | some r, s => k.held r.handle s

/-- What is known in the middle of an operation. -/
def Custody.At (k : Custody σ H) (p : Channel.Phase σ H) : Prop :=
  match p.fresh with
  | false => k.Of p.channel.range p.state
  | true => ∃ r, p.channel.range = some r ∧ k.fresh r.handle p.state

/-- The operations of a transport lead from one stage of custody to the next. -/
structure Transport.Keeps (t : Transport σ H) (k : Custody σ H) : Prop where
  note_idle : ∀ {s} (notice : Notice), k.idle s → k.idle (t.note notice s)
  note_held : ∀ {h s} (notice : Notice), k.held h s → k.held h (t.note notice s)
  opened : ∀ {o start stop s h s'}, k.idle s → t.openPinned o start stop s = (.ok h, s') → k.fresh h s'
  notOpened : ∀ {o start stop s e s'}, k.idle s → t.openPinned o start stop s = (.error e, s') → k.idle s'
  read : ∀ {h s want reply h' s'}, k.fresh h s ∨ k.held h s → t.read want h s = (reply, h', s') → k.held h' s'
  close : ∀ {h s}, k.held h s → k.idle (t.close h s).2

namespace Transport.Keeps

variable {t : Transport σ H} {k : Custody σ H} (ht : t.Keeps k)
include ht

theorem closeQuietly {h : H} {s : σ} (o : ObjectHandle) (hs : k.held h s) : k.idle (t.closeQuietly o h s) :=
  Channel.closeQuietly_keeps ht.note_idle (ht.close hs)

theorem note {range : Option (OpenRange H)} {s : σ} (notice : Notice) (hs : k.Of range s) :
    k.Of range (t.note notice s) := by
  cases range with
  | none => exact ht.note_idle notice hs
  | some r => exact ht.note_held notice hs

/-- After a read of the range, which was fresh or had been read before, it is held. -/
theorem read_held {fresh : Bool} {c : Channel H} {s s' : σ} {r : OpenRange H} {want : Nat} {reply : Reply} {h : H}
    (hp : k.At ⟨fresh, c, s⟩) (hr : c.range = some r) (hread : t.read want r.handle s = (reply, h, s')) :
    k.held h s' := by
  cases fresh with
  | false =>
    have hs : k.Of c.range s := hp
    rw [hr] at hs
    exact ht.read (.inr hs) hread
  | true =>
    obtain ⟨r', hr', hs⟩ := hp
    cases hr.symm.trans hr'
    exact ht.read (.inl hs) hread

/-- Every action of a channel leads from one stage of custody to the next. -/
theorem acts {p q : Channel.Phase σ H} (hp : k.At p) (h : Channel.Acts t p q) : k.At q := by
  have hheld : ∀ {c s r}, k.At ⟨false, c, s⟩ → c.range = some r → k.held r.handle s := by
    intro c s r hs hr
    have hof : k.Of c.range s := hs
    rwa [hr] at hof
  have hidle : ∀ {c s}, k.At ⟨false, c, s⟩ → c.range = none → k.idle s := by
    intro c s hs hr
    have hof : k.Of c.range s := hs
    rwa [hr] at hof
  cases h with
  | notes notice => exact ht.note notice hp
  | @refused c s need e s' hr hopen =>
    show k.Of c.range s'
    rw [hr]
    exact ht.notOpened (hidle hp hr) hopen
  | opens hr hopen => exact ⟨_, rfl, ht.opened (hidle hp hr) hopen⟩
  | fails hr _ hread => exact ht.closeQuietly _ (ht.read_held hp hr hread)
  | ends hr _ hread => exact ht.read_held hp hr hread
  | skips hr _ _ hread => exact ht.read_held hp hr hread
  | delivers hr _ hread => exact ht.read_held hp hr hread
  | drops hr => exact ht.closeQuietly _ (hheld hp hr)
  | leaves hr => exact ht.closeQuietly _ (hheld hp hr)

/-- Every channel keeps the custody that its transport keeps. -/
theorem custody_invariant : Channel.Invariant t fun c s => k.Of c.range s :=
  Channel.Invariant.of_acts (fun hp h => ht.acts hp h) (fun _ hs _ => hs) (fun hs _ => hs)

end Transport.Keeps

end RangeRead
