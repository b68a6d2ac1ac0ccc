import Mathlib.Logic.Relation
import RangeRead.Proofs.Channel.Step

/-!
# The course of an operation

An operation on a channel is a sequence of actions: it takes something down, opens a range, reads it or drops it
(`Acts`). A range that has just been opened is `fresh`, and the next action reads it. What a delivery does is a course
of such actions, after which, if it failed, the position is put back (`Delivers.course`).

A property that every action keeps is therefore an invariant of the channel (`Invariant.of_acts`).
-/

namespace RangeRead

namespace Channel

variable {σ H : Type} {t : Transport σ H}

/-- A channel and its transport in the middle of an operation. -/
structure Phase (σ H : Type) where
  /-- The range of the channel has been opened and not been read yet. -/
  fresh : Bool
  channel : Channel H
  state : σ

/-- What a channel does with its transport at a time. -/
inductive Acts (t : Transport σ H) : Phase σ H → Phase σ H → Prop
  | notes {c s} (notice : Notice) : Acts t ⟨false, c, s⟩ ⟨false, c, t.note notice s⟩
  | refused {c s need e s'} (hr : c.range = none)
      (hopen : t.openPinned c.object c.position (c.nextStop need) s = (.error e, s')) :
      Acts t ⟨false, c, s⟩ ⟨false, { c with sizing := c.nextSizing need }, s'⟩
  | opens {c s need h s'} (hr : c.range = none)
      (hopen : t.openPinned c.object c.position (c.nextStop need) s = (.ok h, s')) :
      Acts t ⟨false, c, s⟩
        ⟨true, { c with sizing := c.nextSizing need, range := some ⟨h, c.position, c.nextStop need⟩ }, s'⟩
  /-- A read fails, and its range is dropped. -/
  | fails {fresh c s r want e h s'} (hr : c.range = some r) (hwant : 0 < want)
      (hread : t.read want r.handle s = (.failed e, h, s')) :
      Acts t ⟨fresh, c, s⟩ ⟨false, { c with range := none }, t.closeQuietly c.object h s'⟩
  | ends {fresh c s r want bytes h s'} (hr : c.range = some r) (hwant : 0 < want)
      (hread : t.read want r.handle s = (.endOfStream bytes, h, s')) :
      Acts t ⟨fresh, c, s⟩ ⟨false, { c with range := some { r with handle := h } }, s'⟩
  /-- A read discards bytes before the position. -/
  | skips {c s r want bytes excess h s'} (hr : c.range = some r) (hsizing : c.sizing ≠ .wholeObject) (hwant : 0 < want)
      (hread : t.read want r.handle s = (.delivered bytes excess, h, s')) :
      Acts t ⟨false, c, s⟩ ⟨false, { c with range := some (r.advance h (bytes.size + excess)) }, s'⟩
  /-- A read delivers bytes at the position. -/
  | delivers {fresh c s r want bytes excess h s'} (hr : c.range = some r) (hwant : 0 < want)
      (hread : t.read want r.handle s = (.delivered bytes excess, h, s')) :
      Acts t ⟨fresh, c, s⟩
        ⟨false, { c with
          position := c.position + (bytes.size + excess)
          range := some (r.advance h (bytes.size + excess)) }, s'⟩
  | drops {c s r} (hr : c.range = some r) :
      Acts t ⟨false, c, s⟩ ⟨false, { c with range := none }, t.closeQuietly c.object r.handle s⟩
  /-- The range is dropped for a position elsewhere. -/
  | leaves {c s r} (hr : c.range = some r) :
      Acts t ⟨false, c, s⟩
        ⟨false, { c with sizing := (c.sizing.observeSeek c.position r.cursor).2, range := none },
          t.closeQuietly c.object r.handle s⟩

theorem Acts.drop (c : Channel H) (r : OpenRange H) (s : σ) :
    Acts t ⟨false, { c with range := some r }, s⟩
      ⟨false, { c with range := none }, t.closeQuietly c.object r.handle s⟩ :=
  .drops (c := { c with range := some r }) rfl

/-- A sequence of actions. -/
abbrev Course (t : Transport σ H) : Phase σ H → Phase σ H → Prop := Relation.ReflTransGen (Acts t)

/-! ## Loops as courses -/

theorem noteChange_course (c : Channel H) (o : ObjectHandle) (change : Option PatternChange) (s : σ) :
    Course t ⟨false, c, s⟩ ⟨false, c, noteChange t o change s⟩ := by
  cases change with
  | none => exact .refl
  | some change => exact .single (.notes _)

theorem afterRead_course (c c' : Channel H) (stop n : Int) (s : σ) :
    Course t ⟨false, c', s⟩ ⟨false, c', c.afterRead t stop n s⟩ := by
  unfold afterRead noteEmptyRead
  split
  · split
    · exact .refl
    · exact .single (.notes _)
  · exact .refl

theorem Skips.course {n : Nat} {c c' : Channel H} {s s' : σ} {a : Outcome ReadError Unit} (h : Skips t n c s a c' s')
    (hsizing : c.sizing ≠ .wholeObject) (hahead : ∀ r, c.range = some r → r.cursor < c.position) :
    Course t ⟨false, c, s⟩ ⟨false, c', s'⟩ := by
  induction h with
  | stalled => exact .refl
  | noRange _ => exact .refl
  | failed hr hread => exact .single (.fails hr (skipRoom_pos (hahead _ hr)) hread)
  | @ended n c s r bytes h s' hr hread =>
    have hends : Acts t ⟨false, c, s⟩ ⟨false, { c with range := some { r with handle := h } }, s'⟩ :=
      .ends hr (skipRoom_pos (hahead _ hr)) hread
    exact .tail (.tail (.single hends) (.notes _)) (.drop c { r with handle := h } _)
  | arrived hr hread _ => exact .single (.skips hr hsizing (skipRoom_pos (hahead _ hr)) hread)
  | @onward n c s r bytes excess h s' a c' s'' hr hread hlt _ ih =>
    have hskips : Acts t ⟨false, c, s⟩ ⟨false, { c with range := some (r.advance h (bytes.size + excess)) }, s'⟩ :=
      .skips hr hsizing (skipRoom_pos (hahead _ hr)) hread
    refine .head hskips (ih hsizing fun r' hr' => ?_)
    cases hr'
    exact hlt

theorem reposition_course (n : Nat) (c : Channel H) (s : σ) :
    Course t ⟨false, c, s⟩ ⟨false, (reposition t n c s).2.1, (reposition t n c s).2.2⟩ := by
  cases hr : c.range with
  | none =>
    rw [reposition_of_none n hr]
  | some r =>
    rw [reposition_of_range n hr]
    split
    · exact .refl
    · split
      · rename_i hskip
        obtain ⟨hsizing, hahead, -⟩ := canSkip_ahead hskip
        refine (skips_skip n c s).course hsizing fun r' hr' => ?_
        rw [hr] at hr'
        cases hr'
        exact hahead
      · exact .tail (noteChange_course _ _ _ _) (.leaves hr)

theorem ensureRange_error_course {need : Int} {c c₁ : Channel H} {s s₁ : σ} {e : ReadError}
    (h : c.ensureRange t need s = (.error e, c₁, s₁)) : Course t ⟨false, c, s⟩ ⟨false, c₁, s₁⟩ := by
  cases hr : c.range with
  | none =>
    rw [ensureRange_of_none hr] at h
    split at h
    · rename_i hopen
      cases h
      exact .tail (noteChange_course _ _ _ _) (.refused hr hopen)
    · cases h
  | some r =>
    rw [ensureRange_of_range need hr] at h
    cases h

/-- The range to be read next is there, or is fresh. -/
theorem ensureRange_ok_course {need : Int} {c c₁ : Channel H} {s s₁ : σ} {r : OpenRange H}
    (h : c.ensureRange t need s = (.ok r, c₁, s₁)) : ∃ fresh, Course t ⟨false, c, s⟩ ⟨fresh, c₁, s₁⟩ := by
  cases hr : c.range with
  | none =>
    rw [ensureRange_of_none hr] at h
    split at h
    · cases h
    · rename_i hopen
      cases h
      exact ⟨true, .tail (noteChange_course _ _ _ _) (.opens hr hopen)⟩
  | some r' =>
    rw [ensureRange_of_range need hr] at h
    cases h
    exact ⟨false, .refl⟩

theorem Fills.course {want n : Nat} {gap : Nat → Nat → ByteArray} {got : Filling} {c c' : Channel H} {s s' : σ}
    {a : Outcome ReadError Filling} (h : Fills t want gap n got c s a c' s') (hwant : 0 < want)
    (hlt : got.count < want) : Course t ⟨false, c, s⟩ ⟨false, c', s'⟩ := by
  induction h with
  | stalled => exact .refl
  | notOpened hensure => exact ensureRange_error_course hensure
  | failed hensure hread =>
    have hr := ensureRange_ok hensure
    obtain ⟨_, hcourse⟩ := ensureRange_ok_course hensure
    exact hcourse.tail (.fails hr (Filling.room_pos hwant hlt) hread)
  | cutShort hensure hread _ _ =>
    have hr := ensureRange_ok hensure
    obtain ⟨_, hcourse⟩ := ensureRange_ok_course hensure
    exact (hcourse.tail (.ends hr (Filling.room_pos hwant hlt) hread)).tail (.drop _ _ _)
  | @continued n got c s r c₁ s₁ bytes h s₂ a c' s' hensure hread _ _ _ ih =>
    have hr := ensureRange_ok hensure
    obtain ⟨_, hcourse⟩ := ensureRange_ok_course hensure
    have hcount : (got.add gap want bytes 0).count = got.count := Int.add_zero _
    have hdropped := (hcourse.tail (.ends hr (Filling.room_pos hwant hlt) hread)).tail (.drop _ _ _)
    exact hdropped.trans (ih (by omega))
  | ended hensure hread _ _ =>
    have hr := ensureRange_ok hensure
    obtain ⟨_, hcourse⟩ := ensureRange_ok_course hensure
    exact hcourse.tail (.ends hr (Filling.room_pos hwant hlt) hread)
  | full hensure hread _ =>
    have hr := ensureRange_ok hensure
    obtain ⟨_, hcourse⟩ := ensureRange_ok_course hensure
    exact (hcourse.tail (.delivers hr (Filling.room_pos hwant hlt) hread)).trans (afterRead_course _ _ _ _ _)
  | more hensure hread hmore _ ih =>
    have hr := ensureRange_ok hensure
    obtain ⟨_, hcourse⟩ := ensureRange_ok_course hensure
    have hread := hcourse.tail (.delivers hr (Filling.room_pos hwant hlt) hread)
    exact (hread.trans (afterRead_course _ _ _ _ _)).trans (ih hmore)

/-- A delivery is a course, after which the position is put back if it failed; no range is open then. -/
theorem Delivers.course {want n : Nat} {gap : Nat → Nat → ByteArray} {c c' : Channel H} {s s' : σ}
    {a : Outcome ReadError Filling} (h : Delivers t n want gap c s a c' s') (hwant : 0 < want) :
    ∃ c₁, Course t ⟨false, c, s⟩ ⟨false, c₁, s'⟩ ∧
      (c' = c₁ ∨ c₁.range = none ∧ c' = { c₁ with position := c.position }) := by
  have hbefore := reposition_course (t := t) n c s
  have hnothing : ({} : Filling).count < (want : Int) := Int.natCast_pos.mpr hwant
  cases h with
  | notSkipped hreposition =>
    rw [hreposition] at hbefore
    exact ⟨_, hbefore, .inr ⟨reposition_failed hreposition, rfl⟩⟩
  | stalled hreposition =>
    rw [hreposition] at hbefore
    exact ⟨_, hbefore, .inl rfl⟩
  | failed hreposition hfills =>
    rw [hreposition] at hbefore
    exact ⟨_, hbefore.trans (hfills.course hwant hnothing), .inr ⟨hfills.range_of_failed rfl, rfl⟩⟩
  | filled hreposition hfills _ =>
    rw [hreposition] at hbefore
    exact ⟨_, hbefore.trans (hfills.course hwant hnothing), .inl rfl⟩

/-! ## Invariants -/

theorem dropRange_course (c : Channel H) (s : σ) :
    Course t ⟨false, c, s⟩ ⟨false, (c.dropRange t s).1, (c.dropRange t s).2⟩ := by
  cases hr : c.range with
  | none =>
    rw [dropRange_of_none hr]
  | some r =>
    rw [dropRange_of_range hr]
    exact .single (.drops hr)

/-- What every action keeps is kept by courses of them. -/
theorem Course.keeps {P : Phase σ H → Prop} (hacts : ∀ {p q}, P p → Acts t p q → P q) {p q : Phase σ H}
    (h : Course t p q) (hp : P p) : P q := by
  induction h with
  | refl => exact hp
  | tail _ hact ih => exact hacts ih hact

/-- What every action keeps, and moving and closing the channel, is an invariant. A channel is moved where it has no
range, or is no simple one; it is closed where it has no range. -/
theorem Invariant.of_acts {P : Phase σ H → Prop} (hacts : ∀ {p q}, P p → Acts t p q → P q)
    (hmoves : ∀ {c s} (position : Int), P ⟨false, c, s⟩ → c.range = none ∨ c.sizing ≠ .wholeObject →
      P ⟨false, { c with position := position }, s⟩)
    (hcloses : ∀ {c s}, P ⟨false, c, s⟩ → c.range = none → P ⟨false, { c with closed := true }, s⟩) :
    Invariant t fun c s => P ⟨false, c, s⟩ := by
  refine ⟨fun {c s} n want gap hp _ hwant => ?_, fun {c s target} hp _ _ _ => ?_, fun {c s} hp hopen => ?_⟩
  · obtain ⟨c₁, hdone, hend⟩ := (delivers_deliver (t := t) n want gap c s).course hwant
    have hp₁ := hdone.keeps hacts hp
    rcases hend with hend | ⟨hnone, hend⟩
    · rw [hend]
      exact hp₁
    · rw [hend]
      exact hmoves _ hp₁ (.inl hnone)
  · rcases moveTo_eq t target c s with ⟨hsame, h⟩ | ⟨-, h⟩
    · rw [h]
      by_cases hsizing : c.sizing = .wholeObject
      · have htarget := hsame hsizing
        subst htarget
        exact hp
      · exact hmoves _ hp (.inr hsizing)
    · rw [h]
      exact hmoves _ ((dropRange_course c s).keeps hacts hp) (.inl (dropRange_range t c s))
  · rw [close_of_open hopen]
    exact hcloses ((dropRange_course c s).keeps hacts hp) (dropRange_range t c s)

end Channel

end RangeRead
