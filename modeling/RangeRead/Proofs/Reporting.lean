import RangeRead.Proofs.Reading
import RangeRead.Proofs.Transport.Scripted

/-!
# Reads that the recorder refuses

A delivery moves the position by the bytes that it counts (`Fills.position`). The recorder is told of them after that,
and if it refuses, the read fails where the position has moved to: the bytes are gone, and a read that follows goes on
behind them. No other failure moves the position (`failed_read`).
-/

namespace RangeRead.Channel

variable {σ H ρ : Type} {t : Transport σ H} {src : Source σ H ρ} {n : Nat}

/-- The position moves by the bytes that are counted. -/
theorem Fills.position {want : Nat} {gap : Nat → Nat → ByteArray} {got got' : Filling} {c c' : Channel H} {s s' : σ}
    {a : Outcome ReadError Filling} (h : Fills t want gap n got c s a c' s') (ha : a = .done got') :
    c'.position - got'.count = c.position - got.count := by
  induction h with
  | stalled => cases ha
  | notOpened _ => cases ha
  | failed _ _ => cases ha
  | cutShort _ _ _ _ => cases ha
  | @continued n got c s r c₁ s₁ bytes h s₂ a c' s' hensure _ _ _ _ ih =>
    have hposition := (ensureRange_sameAs hensure).2
    have hcount : (got.add gap want bytes 0).count = got.count := Int.add_zero _
    rw [ih ha, hcount, hposition]
  | @ended n got c s r c₁ s₁ bytes h s₂ hensure _ _ _ =>
    have hposition := (ensureRange_sameAs hensure).2
    have hcount : (got.add gap want bytes 0).count = got.count := Int.add_zero _
    cases ha
    rw [hcount, ← hposition]
  | @full n got c s r c₁ s₁ bytes excess h s₂ hensure _ _ =>
    have hposition := (ensureRange_sameAs hensure).2
    have hcount : (got.add gap want bytes (bytes.size + excess)).count = got.count + (bytes.size + excess) := rfl
    cases ha
    dsimp only
    omega
  | @more n got c s r c₁ s₁ bytes excess h s₂ a c' s' hensure _ _ _ ih =>
    have hposition := (ensureRange_sameAs hensure).2
    have hcount : (got.add gap want bytes (bytes.size + excess)).count = got.count + (bytes.size + excess) := rfl
    have hrest := ih ha
    dsimp only at hrest
    omega

/-- So a delivery that comes to its end has moved the position by what it counted. -/
theorem Delivers.position {want : Nat} {gap : Nat → Nat → ByteArray} {got : Filling} {c c' : Channel H} {s s' : σ}
    (h : Delivers t n want gap c s (.done got) c' s') : c'.position = c.position + got.count := by
  have hbefore := (reposition_sameAs (t := t) n c s).2
  cases h with
  | filled hreposition hfills _ =>
    rw [hreposition] at hbefore
    have hmoved := hfills.position rfl
    have hnothing : ({} : Filling).count = 0 := rfl
    dsimp only at hbefore
    omega

/-- What a read of the channel `c` that failed with `e` leaves. -/
inductive Failed (src : Source σ H ρ) (e : ReadError) (c : Channel H) (w : World σ ρ) (c' : Channel H)
    (w' : World σ ρ) : Prop
  /-- The position is where it was, and nothing has been recorded. -/
  | rolledBack (hposition : c'.position = c.position) (hrecorder : w'.recorder = w.recorder) : Failed src e c w c' w'
  /-- The recorder has refused the bytes that were delivered, and the position is behind them. -/
  | refused {recorder : Recorder ρ} {count : Int} (hsome : src.recorder = some recorder) (hpos : 0 < count)
    (hrecord : recorder.record count w.recorder = (.error e, w'.recorder))
    (hposition : c'.position = c.position + count) : Failed src e c w c' w'

/-- **A read that fails leaves the position where it was, unless the recorder refuses what it delivered**, in every
state of an open channel and over every transport. -/
theorem failed_read {operation : Operation} {e : ReadError} {c : Channel H} {w : World σ ρ} (hopen : c.closed = false)
    (hread : operation.isRead = true) (hfails : (c.perform src n operation w).1 = .failed e) :
    (c.perform src n operation w).2.1.closed = false ∧
      Failed src e c w (c.perform src n operation w).2.1 (c.perform src n operation w).2.2 := by
  have hreads := @perform_readsTo _ _ _ src n operation hread c w
  generalize c.perform src n operation w = after at hreads hfails ⊢
  obtain ⟨a, c', w'⟩ := after
  dsimp only at hreads hfails ⊢
  subst hfails
  cases hreads with
  | nothing _ => exact ⟨hopen, .rolledBack rfl rfl⟩
  | fails _ hdeliver =>
    have hdelivers := Delivers.of_eq hdeliver
    exact ⟨hdelivers.sameAs.closed.trans hopen, .rolledBack hdelivers.of_failed.2 rfl⟩
  | refused _ hdeliver hreport =>
    have hdelivers := Delivers.of_eq hdeliver
    obtain ⟨recorder, hsome, hpos, hrecord⟩ := report_failed hreport
    exact ⟨hdelivers.sameAs.closed.trans hopen, .refused hsome hpos hrecord hdelivers.position⟩

/-- A recorder that refuses everything. -/
def refusing : Recorder Unit := ⟨fun _ w => (.error (.outside ⟨"RuntimeError", "recorder failed"⟩), w)⟩

/-- So it is where a recorder refuses two bytes of an adaptive channel. -/
theorem failed_read_refused :
    let src : Source (List Scripted.Turn) Scripted.Span Unit := ⟨Scripted.transport ⟨#[1, 2, 3, 4]⟩, some refusing, 4⟩
    let c : Channel Scripted.Span := adaptive { path := "object", size := 4 } .standard
    let failed := c.perform src 9 (.read (some 2)) ⟨[], ()⟩
    failed.1 = .failed (.outside ⟨"RuntimeError", "recorder failed"⟩) ∧ failed.2.1.position = 2 ∧
      failed.2.1.closed = false ∧
      Failed src (.outside ⟨"RuntimeError", "recorder failed"⟩) c ⟨[], ()⟩ failed.2.1 failed.2.2 := by
  have hfails : ((adaptive { path := "object", size := 4 } .standard : Channel Scripted.Span).perform
      (⟨Scripted.transport ⟨#[1, 2, 3, 4]⟩, some refusing, 4⟩ : Source (List Scripted.Turn) Scripted.Span Unit) 9
      (.read (some 2)) ⟨[], ()⟩).1 = .failed (.outside ⟨"RuntimeError", "recorder failed"⟩) := rfl
  exact ⟨hfails, rfl, failed_read rfl rfl hfails⟩

/-- A read that the recorder refuses does not leave the position where it was: of the four bytes of an object, the read
that follows delivers the last two only. -/
theorem refused_read_skips :
    let src : Source (List Scripted.Turn) Scripted.Span Unit := ⟨Scripted.transport ⟨#[1, 2, 3, 4]⟩, some refusing, 4⟩
    let c : Channel Scripted.Span := simple { path := "object", size := 4 } .standard
    let failed := c.perform src 9 (.read (some 2)) ⟨[], ()⟩
    Reached src { path := "object", size := 4 } ⟨[], ()⟩ c ⟨[], ()⟩ ∧ c.closed = false ∧ c.tell = .ok 0 ∧
      failed.1 = .failed (.outside ⟨"RuntimeError", "recorder failed"⟩) ∧ failed.2.1.tell = .ok 2 ∧
      (failed.2.1.perform { src with recorder := none } 9 (.read (some 2)) failed.2.2).1 =
        .done (.bytes ⟨#[3, 4]⟩) :=
  ⟨.new (.simple _ _) rfl, rfl, rfl, rfl, rfl, rfl⟩

end RangeRead.Channel
