import RangeRead.Channel.Operation

/-!
# The loops of a channel

`Channel.skip` and `Channel.fill` read in rounds, at most as many as there is patience for. The relations `Skips` and
`Fills` say how such a loop comes out, with one rule for each way in which a round ends the loop or goes on; every
loop comes out as they say (`skips_skip`, `fills_fill`). Whatever all loops keep is proved by induction on them. How a
delivery comes out, which is one loop after the other, is said by `Delivers` (`delivers_deliver`).

What a round does before it reads is said by `ensureRange_of_range` and `ensureRange_of_none`, and how the opening of
a range comes out by `Opens` (`opens_openPinned`).
-/

namespace RangeRead

variable {σ H : Type}

/-- The range after a read that reported `n` bytes and left `h` to go on with. -/
def OpenRange.advance (r : OpenRange H) (h : H) (n : Int) : OpenRange H := ⟨h, r.cursor + n, r.stop⟩

/-! ## Room for bytes -/

/-- Bytes are wanted as long as fewer are counted, however few. -/
theorem Filling.room_pos {want : Nat} {got : Filling} (hwant : 0 < want) (hlt : got.count < want) :
    0 < got.room want := by
  unfold room fillOffset
  split <;> omega

/-- Bytes are wanted in every round of a skip. -/
theorem skipRoom_pos {cursor position : Int} (h : cursor < position) :
    0 < min skipBufferSize (position - cursor).toNat := by
  unfold skipBufferSize
  omega

/-! ## Opening a range -/

/-- `Opens t o start stop s a s'`: opening and pinning a range comes out as `a`. -/
inductive Opens (t : Transport σ H) (o : ObjectHandle) (start stop : Int) (s : σ) : Except ReadError H → σ → Prop
  | refused {e s'} (hopen : t.openRange o start stop s = (.error e, s')) :
    Opens t o start stop s (.error (.notOpened start stop o e)) s'
  | notSought {h s₁ e h₂ s₂} (hopen : t.openRange o start stop s = (.ok h, s₁))
      (hseek : t.pin .seek start h s₁ = (.error e, h₂, s₂)) :
    Opens t o start stop s (.error (.notPinned start stop o e)) (t.closeQuietly o h₂ s₂)
  | notLimited {h s₁ u h₂ s₂ e h₃ s₃} (hopen : t.openRange o start stop s = (.ok h, s₁))
      (hseek : t.pin .seek start h s₁ = (.ok u, h₂, s₂)) (hlimit : t.pin .limit stop h₂ s₂ = (.error e, h₃, s₃)) :
    Opens t o start stop s (.error (.notPinned start stop o e)) (t.closeQuietly o h₃ s₃)
  | opened {h s₁ u h₂ s₂ u' h₃ s₃} (hopen : t.openRange o start stop s = (.ok h, s₁))
      (hseek : t.pin .seek start h s₁ = (.ok u, h₂, s₂)) (hlimit : t.pin .limit stop h₂ s₂ = (.ok u', h₃, s₃)) :
    Opens t o start stop s (.ok h₃) (t.note (.opened start stop o) s₃)

/-- Opening and pinning a range comes out as `Opens` says. -/
theorem opens_openPinned (t : Transport σ H) (o : ObjectHandle) (start stop : Int) (s : σ) :
    Opens t o start stop s (t.openPinned o start stop s).1 (t.openPinned o start stop s).2 := by
  unfold Transport.openPinned Transport.pinBoth
  split
  · rename_i hopen; exact .refused hopen
  · rename_i h s₁ hopen
    rcases hseek : t.pin .seek start h s₁ with ⟨e | u, h₂, s₂⟩
    · exact .notSought hopen hseek
    · dsimp only
      rcases hlimit : t.pin .limit stop h₂ s₂ with ⟨e | u', h₃, s₃⟩
      · exact .notLimited hopen hseek hlimit
      · exact .opened hopen hseek hlimit

theorem Opens.of_eq {t : Transport σ H} {o : ObjectHandle} {start stop : Int} {s s' : σ} {a : Except ReadError H}
    (h : t.openPinned o start stop s = (a, s')) : Opens t o start stop s a s' := by
  have := opens_openPinned t o start stop s
  rwa [h] at this

namespace Channel

variable {t : Transport σ H}

/-! ## Dropping and having a range -/

theorem dropRange_of_none {c : Channel H} {s : σ} (h : c.range = none) : c.dropRange t s = (c, s) := by
  unfold dropRange
  rw [h]

theorem dropRange_of_range {c : Channel H} {s : σ} {r : OpenRange H} (h : c.range = some r) :
    c.dropRange t s = ({ c with range := none }, t.closeQuietly c.object r.handle s) := by
  unfold dropRange
  rw [h]

/-- A range that is open is used as it is. -/
theorem ensureRange_of_range {c : Channel H} {s : σ} {r : OpenRange H} (need : Int) (h : c.range = some r) :
    c.ensureRange t need s = (.ok r, c, s) := by
  unfold ensureRange
  rw [h]

/-- The end of the range that would be opened at the position for `need` bytes. -/
def nextStop (c : Channel H) (need : Int) : Int := (c.sizing.rangeEnd c.position need c.object.size).1

/-- What opening such a range says about the pattern. -/
def nextSizing (c : Channel H) (need : Int) : Sizing := (c.sizing.rangeEnd c.position need c.object.size).2.2

/-- The state in which it is opened, after a change of the pattern has been noted. -/
def noted (t : Transport σ H) (c : Channel H) (need : Int) (s : σ) : σ :=
  noteChange t c.object (c.sizing.rangeEnd c.position need c.object.size).2.1 s

/-- Without a range a new one is opened at the position. -/
theorem ensureRange_of_none {c : Channel H} {s : σ} {need : Int} (h : c.range = none) :
    c.ensureRange t need s =
      match t.openPinned c.object c.position (c.nextStop need) (c.noted t need s) with
      | (.error e, s') => (.error e, { c with sizing := c.nextSizing need }, s')
      | (.ok a, s') =>
        (.ok ⟨a, c.position, c.nextStop need⟩,
          { c with sizing := c.nextSizing need, range := some ⟨a, c.position, c.nextStop need⟩ }, s') := by
  unfold ensureRange
  rw [h]
  rfl

/-- The state after a read of a range that ends at `stop` has reported `n` bytes; none at all is noted. -/
def afterRead (t : Transport σ H) (c : Channel H) (stop n : Int) (s : σ) : σ :=
  if n = 0 then c.noteEmptyRead t stop s else s

/-! ## Notices

What notices keep is kept by all that a channel does to take something down. -/

section Notices

variable {P : σ → Prop} (hP : ∀ {s} (notice : Notice), P s → P (t.note notice s))
include hP

theorem closeQuietly_keeps {o : ObjectHandle} {h : H} {s : σ} (hs : P (t.close h s).2) : P (t.closeQuietly o h s) := by
  unfold Transport.closeQuietly
  split
  · rename_i heq
    rwa [heq] at hs
  · rename_i heq
    rw [heq] at hs
    exact hP _ hs

theorem noteChange_keeps {o : ObjectHandle} {s : σ} (change : Option PatternChange) (hs : P s) :
    P (noteChange t o change s) := by
  cases change with
  | none => exact hs
  | some change => exact hP _ hs

theorem afterRead_keeps (c : Channel H) (stop n : Int) {s : σ} (hs : P s) : P (c.afterRead t stop n s) := by
  unfold afterRead noteEmptyRead
  split
  · split
    · exact hs
    · exact hP _ hs
  · exact hs

end Notices

/-! ## Skipping -/

/-- `Skips t n c s a c' s'`: skipping on `c` with patience `n` comes out as `a` and leaves `c'`. -/
inductive Skips (t : Transport σ H) : Nat → Channel H → σ → Outcome ReadError Unit → Channel H → σ → Prop
  | stalled {c s} : Skips t 0 c s .stalled c s
  | noRange {n c s} (hr : c.range = none) : Skips t (n + 1) c s (.done ()) c s
  | failed {n c s r e h s'} (hr : c.range = some r)
      (hread : t.read (min skipBufferSize (c.position - r.cursor).toNat) r.handle s = (.failed e, h, s')) :
      Skips t (n + 1) c s (.failed e) { c with range := none } (t.closeQuietly c.object h s')
  | ended {n c s r bytes h s'} (hr : c.range = some r)
      (hread : t.read (min skipBufferSize (c.position - r.cursor).toNat) r.handle s = (.endOfStream bytes, h, s')) :
      Skips t (n + 1) c s (.done ()) { c with range := none }
        (t.closeQuietly c.object h (t.note (.endedInSkip c.position c.object) s'))
  | arrived {n c s r bytes excess h s'} (hr : c.range = some r)
      (hread : t.read (min skipBufferSize (c.position - r.cursor).toNat) r.handle s = (.delivered bytes excess, h, s'))
      (hle : c.position ≤ r.cursor + (bytes.size + excess)) :
      Skips t (n + 1) c s (.done ()) { c with range := some (r.advance h (bytes.size + excess)) } s'
  | onward {n c s r bytes excess h s' a c' s''} (hr : c.range = some r)
      (hread : t.read (min skipBufferSize (c.position - r.cursor).toNat) r.handle s = (.delivered bytes excess, h, s'))
      (hlt : r.cursor + (bytes.size + excess) < c.position)
      (rest : Skips t n { c with range := some (r.advance h (bytes.size + excess)) } s' a c' s'') :
      Skips t (n + 1) c s a c' s''

/-- Skipping comes out as `Skips` says. -/
theorem skips_skip (n : Nat) (c : Channel H) (s : σ) :
    Skips t n c s (skip t n c s).1 (skip t n c s).2.1 (skip t n c s).2.2 := by
  induction n generalizing c s with
  | zero => exact .stalled
  | succ n ih =>
    unfold skip
    cases hr : c.range with
    | none => exact .noRange hr
    | some r =>
      dsimp only
      split
      · rename_i hread; exact .failed hr hread
      · rename_i hread; exact .ended hr hread
      · rename_i bytes excess h s' hread
        split
        · rename_i hle; exact .arrived hr hread hle
        · rename_i hlt; exact .onward hr hread (Int.not_le.mp hlt) (ih _ _)

/-- Skipping comes out in one way only. -/
theorem Skips.eq {n : Nat} {c c' : Channel H} {s s' : σ} {a : Outcome ReadError Unit} (h : Skips t n c s a c' s') :
    skip t n c s = (a, c', s') := by
  induction h with
  | stalled => rfl
  | noRange hr => simp only [skip, hr]
  | failed hr hread => simp only [skip, hr, hread, dropRange]
  | ended hr hread => simp only [skip, hr, hread, dropRange]
  | arrived hr hread hle =>
    simp only [skip, hr, hread, if_pos hle]
    rfl
  | onward hr hread hlt _ ih =>
    simp only [skip, hr, hread, if_neg (Int.not_le.mpr hlt)]
    exact ih

/-! ## Filling -/

/-- `Fills t want gap n got c s a c' s'`: filling a buffer from `got` on with patience `n` comes out as `a` and leaves
`c'`. -/
inductive Fills (t : Transport σ H) (want : Nat) (gap : Nat → Nat → ByteArray) :
    Nat → Filling → Channel H → σ → Outcome ReadError Filling → Channel H → σ → Prop
  | stalled {got c s} : Fills t want gap 0 got c s .stalled c s
  | notOpened {n got c s e c₁ s₁} (hensure : c.ensureRange t (want - got.count) s = (.error e, c₁, s₁)) :
      Fills t want gap (n + 1) got c s (.failed e) c₁ s₁
  | failed {n got c s r c₁ s₁ e h s₂} (hensure : c.ensureRange t (want - got.count) s = (.ok r, c₁, s₁))
      (hread : t.read (got.room want) r.handle s₁ = (.failed e, h, s₂)) :
      Fills t want gap (n + 1) got c s (.failed e) { c₁ with range := none } (t.closeQuietly c₁.object h s₂)
  | cutShort {n got c s r c₁ s₁ bytes h s₂} (hensure : c.ensureRange t (want - got.count) s = (.ok r, c₁, s₁))
      (hread : t.read (got.room want) r.handle s₁ = (.endOfStream bytes, h, s₂))
      (hstop : c₁.position ≠ r.stop) (hsize : c₁.position ≠ c₁.object.size) :
      Fills t want gap (n + 1) got c s (.failed (c₁.cutShort r.stop)) { c₁ with range := none }
        (t.closeQuietly c₁.object h s₂)
  | continued {n got c s r c₁ s₁ bytes h s₂ a c' s'}
      (hensure : c.ensureRange t (want - got.count) s = (.ok r, c₁, s₁))
      (hread : t.read (got.room want) r.handle s₁ = (.endOfStream bytes, h, s₂))
      (hstop : c₁.position = r.stop) (hsize : r.stop ≠ c₁.object.size)
      (rest : Fills t want gap n (got.add gap want bytes 0) { c₁ with range := none }
        (t.closeQuietly c₁.object h s₂) a c' s') :
      Fills t want gap (n + 1) got c s a c' s'
  | ended {n got c s r c₁ s₁ bytes h s₂} (hensure : c.ensureRange t (want - got.count) s = (.ok r, c₁, s₁))
      (hread : t.read (got.room want) r.handle s₁ = (.endOfStream bytes, h, s₂))
      (hsize : c₁.position = c₁.object.size) (hstop : c₁.position = r.stop → r.stop = c₁.object.size) :
      Fills t want gap (n + 1) got c s (.done (got.add gap want bytes 0))
        { c₁ with range := some { r with handle := h } } s₂
  | full {n got c s r c₁ s₁ bytes excess h s₂} (hensure : c.ensureRange t (want - got.count) s = (.ok r, c₁, s₁))
      (hread : t.read (got.room want) r.handle s₁ = (.delivered bytes excess, h, s₂))
      (hle : (want : Int) ≤ (got.add gap want bytes (bytes.size + excess)).count) :
      Fills t want gap (n + 1) got c s (.done (got.add gap want bytes (bytes.size + excess)))
        { c₁ with
          position := c₁.position + (bytes.size + excess)
          range := some (r.advance h (bytes.size + excess)) }
        (c₁.afterRead t r.stop (bytes.size + excess) s₂)
  | more {n got c s r c₁ s₁ bytes excess h s₂ a c' s'}
      (hensure : c.ensureRange t (want - got.count) s = (.ok r, c₁, s₁))
      (hread : t.read (got.room want) r.handle s₁ = (.delivered bytes excess, h, s₂))
      (hlt : (got.add gap want bytes (bytes.size + excess)).count < (want : Int))
      (rest : Fills t want gap n (got.add gap want bytes (bytes.size + excess))
        { c₁ with
          position := c₁.position + (bytes.size + excess)
          range := some (r.advance h (bytes.size + excess)) }
        (c₁.afterRead t r.stop (bytes.size + excess) s₂) a c' s') :
      Fills t want gap (n + 1) got c s a c' s'

/-- Filling comes out as `Fills` says. -/
theorem fills_fill (want : Nat) (gap : Nat → Nat → ByteArray) (n : Nat) (got : Filling) (c : Channel H) (s : σ) :
    Fills t want gap n got c s (fill t want gap n got c s).1 (fill t want gap n got c s).2.1
      (fill t want gap n got c s).2.2 := by
  induction n generalizing got c s with
  | zero => exact .stalled
  | succ n ih =>
    unfold fill
    split
    · rename_i hensure; exact .notOpened hensure
    · rename_i r c₁ s₁ hensure
      split
      · rename_i hread
        rw [dropRange_of_range rfl]
        dsimp only
        exact .failed hensure hread
      · rename_i bytes h s₂ hread
        dsimp only
        split
        · rename_i hearly
          have hcut : Fills t want gap (n + 1) got c s (.failed (c₁.cutShort r.stop)) { c₁ with range := none }
              (t.closeQuietly c₁.object h s₂) := .cutShort hensure hread hearly.1 hearly.2
          exact hcut
        · rename_i hearly
          split
          · rename_i hcapped; exact .continued hensure hread hcapped.1 hcapped.2 (ih _ _ _)
          · rename_i hcapped
            -- what neither test caught is the end of the object
            exact .ended hensure hread (by omega) (by omega)
      · rename_i bytes excess h s₂ hread
        dsimp only
        split
        · rename_i hle; exact .full hensure hread hle
        · rename_i hlt; exact .more hensure hread (Int.not_le.mp hlt) (ih _ _ _)

/-- Filling comes out in one way only. -/
theorem Fills.eq {want n : Nat} {gap : Nat → Nat → ByteArray} {got : Filling} {c c' : Channel H} {s s' : σ}
    {a : Outcome ReadError Filling} (h : Fills t want gap n got c s a c' s') :
    fill t want gap n got c s = (a, c', s') := by
  induction h with
  | stalled => rfl
  | notOpened hensure => simp only [fill, hensure]
  | failed hensure hread => simp only [fill, hensure, hread, dropRange]
  | cutShort hensure hread hstop hsize =>
    simp only [fill, hensure, hread, dropRange]
    rw [if_pos ⟨hstop, hsize⟩]
    rfl
  | continued hensure hread hstop hsize _ ih =>
    simp only [fill, hensure, hread, dropRange]
    rw [if_neg (by simp [hstop]), if_pos ⟨hstop, hsize⟩]
    exact ih
  | ended hensure hread hsize hstop =>
    simp only [fill, hensure, hread, dropRange]
    rw [if_neg (by simp [hsize]), if_neg (fun hboth => hboth.2 (hstop hboth.1))]
  | full hensure hread hle =>
    simp only [fill, hensure, hread]
    exact if_pos hle
  | more hensure hread hlt _ ih =>
    simp only [fill, hensure, hread]
    rw [if_neg (Int.not_le.mpr hlt)]
    exact ih

/-! ## Deliveries -/

/-- `Delivers t n want gap c s a c' s'`: a delivery on `c` with patience `n` comes out as `a` and leaves `c'`. -/
inductive Delivers (t : Transport σ H) (n want : Nat) (gap : Nat → Nat → ByteArray) (c : Channel H) (s : σ) :
    Outcome ReadError Filling → Channel H → σ → Prop
  | notSkipped {e c₁ s₁} (hreposition : reposition t n c s = (.failed e, c₁, s₁)) :
      Delivers t n want gap c s (.failed e) { c₁ with position := c.position } s₁
  | stalled {c₁ s₁} (hreposition : reposition t n c s = (.stalled, c₁, s₁)) : Delivers t n want gap c s .stalled c₁ s₁
  | failed {c₁ s₁ e c₂ s₂} (hreposition : reposition t n c s = (.done (), c₁, s₁))
      (hfills : Fills t want gap n {} c₁ s₁ (.failed e) c₂ s₂) :
      Delivers t n want gap c s (.failed e) { c₂ with position := c.position } s₂
  | filled {c₁ s₁ a c₂ s₂} (hreposition : reposition t n c s = (.done (), c₁, s₁))
      (hfills : Fills t want gap n {} c₁ s₁ a c₂ s₂) (hreturns : ∀ e, a ≠ .failed e) :
      Delivers t n want gap c s a c₂ s₂

/-- A delivery comes out as `Delivers` says. -/
theorem delivers_deliver (n want : Nat) (gap : Nat → Nat → ByteArray) (c : Channel H) (s : σ) :
    Delivers t n want gap c s (deliver t n want gap c s).1 (deliver t n want gap c s).2.1
      (deliver t n want gap c s).2.2 := by
  unfold deliver
  split
  · rename_i h; exact .notSkipped h
  · rename_i h; exact .stalled h
  · rename_i c₁ s₁ h
    have hfills := fills_fill (t := t) want gap n {} c₁ s₁
    split
    · rename_i e c₂ s₂ hf
      rw [hf] at hfills
      exact .failed h hfills
    · rename_i hne
      exact .filled h hfills fun e he => hne e _ _ (Prod.ext he rfl)

theorem Delivers.of_eq {n want : Nat} {gap : Nat → Nat → ByteArray} {c c' : Channel H} {s s' : σ}
    {a : Outcome ReadError Filling} (h : deliver t n want gap c s = (a, c', s')) :
    Delivers t n want gap c s a c' s' := by
  have hd := delivers_deliver (t := t) n want gap c s
  rwa [h] at hd

end Channel

end RangeRead
