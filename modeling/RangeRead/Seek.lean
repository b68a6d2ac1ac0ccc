import RangeRead.Error

/-!
# Seeking

`resolveSeek` turns an offset and its point of reference into a position within the object. A position is
accepted exactly if it lies within `[0, size]` (`resolveSeek_eq_ok_iff`).
-/

namespace RangeRead

/-- The points that a seek may count from. -/
inductive Whence
  | start
  | current
  | stop
  deriving DecidableEq, Repr

/-- The point that a numeric code stands for. -/
def Whence.ofCode? (code : Int) : Option Whence :=
  if code = 0 then some .start else if code = 1 then some .current else if code = 2 then some .stop else none

/-- The position at `offset` from a point of reference. -/
def Whence.target (offset position size : Int) : Whence → Int
  | .start => offset
  | .current => position + offset
  | .stop => size + offset

/-- The absolute position that a seek asks for; it must lie within the object or at its end. -/
def resolveSeek (offset whence position size : Int) : Except ReadError Int :=
  match Whence.ofCode? whence with
  | none => .error (.invalidWhence whence)
  | some reference =>
    let target := reference.target offset position size
    if 0 ≤ target ∧ target ≤ size then .ok target else .error (.invalidPosition target size)

/-- A seek succeeds exactly at a position within the object, counted from a known point. -/
theorem resolveSeek_eq_ok_iff {offset whence position size target : Int} :
    resolveSeek offset whence position size = .ok target ↔
      (∃ reference, Whence.ofCode? whence = some reference ∧ reference.target offset position size = target) ∧
        0 ≤ target ∧ target ≤ size := by
  unfold resolveSeek
  cases Whence.ofCode? whence with
  | none => simp
  | some reference =>
    by_cases h : 0 ≤ reference.target offset position size ∧ reference.target offset position size ≤ size
    · simp only [h, and_self, if_true, Except.ok.injEq, Option.some.injEq, exists_eq_left']
      constructor
      · rintro rfl; exact ⟨rfl, h⟩
      · rintro ⟨rfl, -⟩; rfl
    · simp only [h, if_false, Option.some.injEq, exists_eq_left', reduceCtorEq, false_iff]
      rintro ⟨rfl, h'⟩
      exact h h'

/-- Counted from the start, an offset within the object is the position. -/
theorem resolveSeek_start {offset position size : Int} (h0 : 0 ≤ offset) (hle : offset ≤ size) :
    resolveSeek offset 0 position size = .ok offset :=
  resolveSeek_eq_ok_iff.mpr ⟨⟨.start, rfl, rfl⟩, h0, hle⟩

end RangeRead
