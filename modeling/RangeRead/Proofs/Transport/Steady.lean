import RangeRead.Proofs.Transport.Listing
import RangeRead.Proofs.Transport.Scripted

/-!
# Transports that do not fail

An honest transport is `Transport.Steady` if no range is refused, no read fails, and a range tells its end only there.
Unlike a reliable one it need not be truthful, and its reads may bring nothing. A log of its calls and a list of its
ranges keep it so (`Steady.logged`, `Steady.listing`), and the list is made longer by openings only.
-/

namespace RangeRead

variable {σ H : Type} {t : Transport σ H} {o : ObjectHandle} {v : View σ H}

/-- Nothing fails, and a range is delivered in full before it tells its end. -/
structure Transport.Steady (t : Transport σ H) (o : ObjectHandle) (v : View σ H) : Prop extends t.Honest o v where
  opens : ∀ {start stop s}, v.idle s → o.Window start stop → ∃ h s', t.openPinned o start stop s = (.ok h, s')
  reads : ∀ {h cursor stop s want e h' s'}, v.stands h cursor stop s → o.Window cursor stop → 0 < want →
    t.read want h s ≠ (.failed e, h', s')
  ends : ∀ {h cursor stop s want bytes h' s'}, v.stands h cursor stop s → o.Window cursor stop → 0 < want →
    t.read want h s = (.endOfStream bytes, h', s') → cursor = stop

namespace Transport

/-- A reliable transport is steady. -/
theorem Reliable.steady {data : ByteArray} (ht : t.Reliable o data v) : t.Steady o v where
  toHonest := ht.toHonest
  opens := ht.opens
  reads {h cursor stop s want e h' s'} hs hw hwant hread := by
    by_cases hlt : cursor < stop
    · obtain ⟨bytes, h₁, s₁, hbytes, -⟩ := ht.reads hs hw hlt hwant
      rw [hbytes] at hread
      cases hread
    · obtain rfl : cursor = stop := by
        have hle := hw.le
        omega
      obtain ⟨h₁, s₁, hend⟩ := ht.ends hs hw hwant
      rw [hend] at hread
      cases hread
  ends {h cursor stop s want bytes h' s'} hs hw hwant hread := by
    by_cases hlt : cursor < stop
    · obtain ⟨bytes, h₁, s₁, hbytes, -⟩ := ht.reads hs hw hlt hwant
      rw [hbytes] at hread
      cases hread
    · have hle := hw.le
      omega

/-! ## Logs and lists -/

theorem Covers.steady {τ K : Type} {t' : Transport τ K} {handle : K → H} {state : τ → σ}
    (h : t'.Covers t handle state) (ht : t.Steady o v) : t'.Steady o (v.through handle state) where
  toHonest := h.honest ht.toHonest
  opens hs hw := by
    obtain ⟨r, s₁, hopen⟩ := ht.opens hs hw
    exact h.exists_openPinned hopen
  reads hs hw hwant hread := ht.reads hs hw hwant (h.read_eq hread)
  ends hs hw hwant hread := ht.ends hs hw hwant (h.read_eq hread)

theorem Steady.logged (ht : t.Steady o v) : t.logged.Steady o v.logged := (logged_covers t).steady ht

theorem Steady.listing (ht : t.Steady o v) : t.listing.Steady o v.listing := (listing_covers t).steady ht

/-- A range that has been opened and pinned is the last of the list. -/
theorem listing_openPinned_windows {start stop : Int} {s s' : Listed σ} {h : H}
    (heq : t.listing.openPinned o start stop s = (.ok h, s')) : s'.windows = s.windows ++ [(start, stop)] := by
  cases Opens.of_eq heq with
  | @opened _ _ _ _ _ _ _ s₃ hopen hseek hlimit =>
    show s₃.windows = _
    rw [(listing_pin hlimit).2, (listing_pin hseek).2, (listing_openRange_ok hopen).2]

theorem listing_closeQuietly_windows (o : ObjectHandle) (h : H) (s : Listed σ) :
    (t.listing.closeQuietly o h s).windows = s.windows :=
  Channel.closeQuietly_keeps (P := fun s' : Listed σ => s'.windows = s.windows) (fun _ h => h) rfl

end Transport

/-! ## Scripts -/

namespace Scripted

/-- A script of short reads: what is read may come in pieces of any size. -/
def Short (turns : List Turn) : Prop := ∀ turn ∈ turns, ∃ most, turn = .delivers most

instance (turn : Turn) : Decidable (∃ most, turn = .delivers most) :=
  match turn with
  | .delivers most => isTrue ⟨most, rfl⟩
  | .fails _ => isFalse nofun
  | .ends => isFalse nofun

instance : DecidablePred Short := fun turns => inferInstanceAs (Decidable (∀ turn ∈ turns, _))

instance (P : List Turn → Prop) [DecidablePred P] (range : Option (OpenRange Span)) (turns : List Turn) :
    Decidable ((view P).Holds o range turns) :=
  match range with
  | none => inferInstanceAs (Decidable (P turns))
  | some r =>
    inferInstanceAs (Decidable ((r.handle.cursor = r.cursor ∧ r.handle.stop = r.stop ∧ P turns) ∧
      o.Window r.cursor r.stop))

theorem lasting_short : Lasting Short := fun h turn hmem => h turn (List.mem_cons_of_mem _ hmem)

theorem comply_short {turns : List Turn} (h : Short turns) : comply turns = (.ok (), turns) := by
  cases turns with
  | nil => rfl
  | cons turn turns =>
    obtain ⟨most, rfl⟩ := h turn List.mem_cons_self
    rfl

/-- A read hands out bytes, or tells the end where no byte is left. -/
theorem read_short {data : ByteArray} {want : Nat} {r r' : Span} {turns turns' : List Turn} {reply : Reply}
    (h : Short turns) (heq : (transport data).read want r turns = (reply, r', turns')) :
    (∃ bytes, reply = .delivered bytes 0) ∨ reply = .endOfStream .empty ∧ (r.bytes data want).size = 0 := by
  cases turns with
  | nil =>
    rw [read_over] at heq
    split at heq
    · rename_i hnone
      cases heq
      exact .inr ⟨rfl, hnone⟩
    · cases heq
      exact .inl ⟨_, rfl⟩
  | cons turn turns =>
    obtain ⟨most, rfl⟩ := h turn List.mem_cons_self
    cases heq
    exact .inl ⟨_, rfl⟩

/-- A transport whose script is one of short reads is steady, if it stores as many bytes as the object has. -/
theorem steady {data : ByteArray} (hsize : data.size = o.size) : (transport data).Steady o (view Short) where
  toHonest := (truthful lasting_short o data).toHonest
  opens {start stop turns} hs hw := by
    have hcomply : comply turns = (.ok (), turns) := comply_short hs
    unfold Transport.openPinned Transport.pinBoth
    simp only [transport, hcomply]
    exact ⟨_, _, rfl⟩
  reads {h cursor stop turns want e h' s'} hs hw hwant hread := by
    rcases read_short hs.2.2 hread with ⟨bytes, hr⟩ | ⟨hr, -⟩
    · cases hr
    · cases hr
  ends {h cursor stop turns want bytes h' s'} hs hw hwant hread := by
    obtain ⟨rfl, rfl, hturns⟩ := hs
    rcases read_short hturns hread with ⟨bytes, hr⟩ | ⟨-, hnone⟩
    · cases hr
    · have h0 := hw.nonneg
      have hle := hw.le
      have hlast := hw.le_size
      unfold Span.bytes at hnone
      rw [ByteArray.size_extract] at hnone
      omega

end Scripted

end RangeRead
