import RangeRead.Proofs.Transport.Covers
import RangeRead.Proofs.Transport.Honest
import RangeRead.Proofs.Transport.Log

/-!
# Logging does not get in the way

A logged transport answers as the transport behind it does (`logged_covers`), so that it is as honest, as truthful and
as reliable (`Honest.logged`, `Truthful.logged`, `Reliable.logged`).
-/

namespace RangeRead

variable {σ H : Type} {t : Transport σ H} {o : ObjectHandle} {data : ByteArray} {v : View σ H}

/-- What is known of a logged transport is what is known of the one behind it. -/
def View.logged (v : View σ H) : View (Logged σ) (Numbered H) where
  idle s := v.idle s.behind
  stands h cursor stop s := v.stands h.behind cursor stop s.behind

namespace Transport

/-! ## The calls behind a log -/

theorem logged_openRange_behind {start stop : Int} {s s' : Logged σ} {a : Except ReadError (Numbered H)}
    (h : t.logged.openRange o start stop s = (a, s')) :
    t.openRange o start stop s.behind = (a.map Numbered.behind, s'.behind) := by
  simp only [logged] at h
  split at h
  · rename_i heq
    cases h
    exact heq
  · rename_i heq
    cases h
    exact heq

theorem logged_read_behind {want : Nat} {r r' : Numbered H} {s s' : Logged σ} {reply : Reply}
    (h : t.logged.read want r s = (reply, r', s')) : t.read want r.behind s.behind = (reply, r'.behind, s'.behind) := by
  cases h
  rfl

/-- With a log a transport does what it does without one. -/
theorem logged_covers (t : Transport σ H) : t.logged.Covers t Numbered.behind Logged.behind where
  openRange _ _ _ _ := logged_openRange_behind rfl
  pin _ _ _ _ := rfl
  read _ _ _ := rfl
  close _ _ := rfl
  note _ _ := rfl

/-! ## What is asked of a transport -/

theorem Counts.logged (ht : t.Counts) : t.logged.Counts := fun hread => ht (logged_read_behind hread)

theorem Honest.logged (ht : t.Honest o v) : t.logged.Honest o v.logged := (logged_covers t).honest ht

theorem Truthful.logged (ht : t.Truthful o data v) : t.logged.Truthful o data v.logged := (logged_covers t).truthful ht

theorem Reliable.logged (ht : t.Reliable o data v) : t.logged.Reliable o data v.logged := (logged_covers t).reliable ht

end Transport

end RangeRead
