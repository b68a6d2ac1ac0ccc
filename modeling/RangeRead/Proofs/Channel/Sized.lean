import RangeRead.Proofs.Channel.Course

/-!
# How far the open range of a channel reaches

Over any transport, the open range of a simple channel stands at the position and reaches to the end of the object. That
of an adaptive channel reaches to where its strategy last decided, which is the end of the object unless reads count as
random; in sequential mode they never do (`Sized`). Every operation keeps this (`sized_invariant`).
-/

namespace RangeRead

/-! ## Strategies -/

/-- A strategy for these options, which in sequential mode does not count reads as random. -/
structure Strategy.Fits (s : Strategy) (options : ReadOptions) : Prop where
  options_eq : s.options = options
  sequential : options.accessPattern = .sequential → s.isRandom = false

namespace Strategy

theorem fits_ofOptions (options : ReadOptions) : (ofOptions options).Fits options where
  options_eq := rfl
  sequential h := by
    unfold ofOptions
    rw [h]
    rfl

/-- A range request never makes reads random. -/
theorem observeRequest_fits {s : Strategy} {options : ReadOptions} (h : s.Fits options) (start : Int) :
    (s.observeRequest start).2.Fits options := by
  unfold observeRequest
  split
  · split
    · dsimp only
      split
      · exact ⟨h.options_eq, fun _ => rfl⟩
      · exact ⟨h.options_eq, h.sequential⟩
    · exact ⟨h.options_eq, h.sequential⟩
  · exact h

theorem rangeEnd_fits {s : Strategy} {options : ReadOptions} (h : s.Fits options) (start need size : Int) :
    (s.rangeEnd start need size).2.2.Fits options := by
  have hobserved := observeRequest_fits h start
  exact ⟨hobserved.options_eq, hobserved.sequential⟩

/-- A range request of reads that do not count as random afterwards ends with the object. -/
theorem rangeEnd_of_sequential {s : Strategy} {start need size : Int}
    (h : (s.rangeEnd start need size).2.2.isRandom = false) : (s.rangeEnd start need size).1 = size := by
  have hobserved : (s.observeRequest start).2.isRandom = false := h
  show (s.observeRequest start).2.extent start need size = size
  unfold extent
  rw [hobserved]
  rfl

/-- A seek makes reads random in automatic mode only. -/
theorem observeSeek_fits {s : Strategy} {options : ReadOptions} (h : s.Fits options) (target cursor : Int) :
    (s.observeSeek target cursor).2.Fits options := by
  unfold observeSeek
  split
  · exact h
  · rename_i hdetects
    have hauto : options.accessPattern ≠ .sequential := by
      intro hsequential
      apply hdetects
      unfold detects isAuto
      rw [h.options_eq, hsequential]
      cases s.isRandom <;> rfl
    split
    · exact ⟨h.options_eq, fun hsequential => absurd hsequential hauto⟩
    · split
      · exact ⟨h.options_eq, fun hsequential => absurd hsequential hauto⟩
      · exact h

end Strategy

namespace Sizing

instance (z : Sizing) : Decidable (z = .wholeObject) :=
  match z with
  | .wholeObject => isTrue rfl
  | .adaptive _ => isFalse nofun

/-- A sizing for these options. -/
def Fits (options : ReadOptions) : Sizing → Prop
  | .wholeObject => True
  | .adaptive strategy => strategy.Fits options

/-- How a range relates to the position and to the size of its object. -/
def Admits (position size cursor stop : Int) : Sizing → Prop
  | .wholeObject => cursor = position ∧ stop = size
  | .adaptive strategy => strategy.lastEnd = stop ∧ (strategy.isRandom = false → stop = size)

theorem rangeEnd_fits {z : Sizing} {options : ReadOptions} (h : z.Fits options) (start need size : Int) :
    (z.rangeEnd start need size).2.2.Fits options := by
  cases z with
  | wholeObject => trivial
  | adaptive strategy => exact Strategy.rangeEnd_fits h start need size

theorem observeSeek_fits {z : Sizing} {options : ReadOptions} (h : z.Fits options) (target cursor : Int) :
    (z.observeSeek target cursor).2.Fits options := by
  cases z with
  | wholeObject => trivial
  | adaptive strategy => exact Strategy.observeSeek_fits h target cursor

theorem rangeEnd_eq_wholeObject (z : Sizing) (start need size : Int) :
    (z.rangeEnd start need size).2.2 = .wholeObject ↔ z = .wholeObject := by
  cases z with
  | wholeObject => exact Iff.rfl
  | adaptive strategy => exact ⟨nofun, nofun⟩

theorem observeSeek_eq_wholeObject (z : Sizing) (target cursor : Int) :
    (z.observeSeek target cursor).2 = .wholeObject ↔ z = .wholeObject := by
  cases z with
  | wholeObject => exact Iff.rfl
  | adaptive strategy => exact ⟨nofun, nofun⟩

/-- A new range is admitted where it has been opened. -/
theorem rangeEnd_admits (z : Sizing) (start need size : Int) :
    (z.rangeEnd start need size).2.2.Admits start size start (z.rangeEnd start need size).1 := by
  cases z with
  | wholeObject => exact ⟨rfl, rfl⟩
  | adaptive strategy => exact ⟨rfl, Strategy.rangeEnd_of_sequential⟩

/-- An adaptive channel does not mind where a range stands. -/
theorem Admits.move {z : Sizing} {position size cursor stop : Int} (h : z.Admits position size cursor stop)
    (hz : z ≠ .wholeObject) (position' cursor' : Int) : z.Admits position' size cursor' stop := by
  cases z with
  | wholeObject => exact absurd rfl hz
  | adaptive strategy => exact h

/-- The position and a range may move on alike. -/
theorem Admits.advance {z : Sizing} {position size cursor stop : Int} (h : z.Admits position size cursor stop)
    (n : Int) : z.Admits (position + n) size (cursor + n) stop := by
  cases z with
  | wholeObject =>
    obtain ⟨rfl, hstop⟩ := h
    exact ⟨rfl, hstop⟩
  | adaptive strategy => exact h

end Sizing

namespace Channel

variable {σ H : Type} {t : Transport σ H}

/-- The open range of a channel reaches as far as its sizing says. -/
structure Sized (c : Channel H) : Prop where
  fits : c.sizing.Fits c.options
  admits : ∀ r, c.range = some r → c.sizing.Admits c.position c.object.size r.cursor r.stop

theorem IsNew.sized {c : Channel H} (h : IsNew c) : Sized c := by
  refine ⟨?_, fun r hr => ?_⟩
  · cases h with
    | adaptive object options => exact Strategy.fits_ofOptions options
    | simple object options => trivial
  · rw [h.range] at hr
    cases hr

/-- Every action keeps a channel sized. -/
theorem Acts.sized {p q : Phase σ H} (h : Acts t p q) (hp : Sized p.channel) : Sized q.channel := by
  obtain ⟨hfits, hadmits⟩ := hp
  cases h with
  | notes => exact ⟨hfits, hadmits⟩
  | refused hr => exact ⟨Sizing.rangeEnd_fits hfits _ _ _, fun r' hr' => by rw [hr] at hr'; cases hr'⟩
  | opens =>
    refine ⟨Sizing.rangeEnd_fits hfits _ _ _, fun r' hr' => ?_⟩
    cases hr'
    exact Sizing.rangeEnd_admits _ _ _ _
  | fails => exact ⟨hfits, nofun⟩
  | @ends _ _ _ r _ _ _ _ hr =>
    refine ⟨hfits, fun r' hr' => ?_⟩
    cases hr'
    exact hadmits r hr
  | skips hr hsizing =>
    refine ⟨hfits, fun r' hr' => ?_⟩
    cases hr'
    exact (hadmits _ hr).move hsizing _ _
  | delivers hr =>
    refine ⟨hfits, fun r' hr' => ?_⟩
    cases hr'
    exact (hadmits _ hr).advance _
  | drops => exact ⟨hfits, nofun⟩
  | leaves => exact ⟨Sizing.observeSeek_fits hfits _ _, nofun⟩

/-- No action changes the kind of a channel or its options. -/
theorem Acts.kind {p q : Phase σ H} (h : Acts t p q) :
    (q.channel.sizing = .wholeObject ↔ p.channel.sizing = .wholeObject) ∧ q.channel.options = p.channel.options := by
  cases h with
  | notes _ => exact ⟨Iff.rfl, rfl⟩
  | refused _ _ => exact ⟨Sizing.rangeEnd_eq_wholeObject _ _ _ _, rfl⟩
  | opens _ _ => exact ⟨Sizing.rangeEnd_eq_wholeObject _ _ _ _, rfl⟩
  | fails _ _ _ => exact ⟨Iff.rfl, rfl⟩
  | ends _ _ _ => exact ⟨Iff.rfl, rfl⟩
  | skips _ _ _ _ => exact ⟨Iff.rfl, rfl⟩
  | delivers _ _ _ => exact ⟨Iff.rfl, rfl⟩
  | drops _ => exact ⟨Iff.rfl, rfl⟩
  | leaves _ => exact ⟨Sizing.observeSeek_eq_wholeObject _ _ _, rfl⟩

/-- Neither does an operation. -/
theorem kind_invariant (t : Transport σ H) (P : Prop → ReadOptions → Prop) :
    Invariant t fun c _ => P (c.sizing = .wholeObject) c.options :=
  Invariant.of_acts (P := fun p => P (p.channel.sizing = .wholeObject) p.channel.options)
    (fun hp h => by
      obtain ⟨hsizing, hoptions⟩ := h.kind
      rw [propext hsizing, hoptions]
      exact hp)
    (fun _ hp _ => hp) (fun hp _ => hp)

theorem reposition_sized (n : Nat) {c : Channel H} (s : σ) (h : Sized c) : Sized (reposition t n c s).2.1 :=
  (reposition_course n c s).keeps (P := fun p => Sized p.channel) (fun hp hact => hact.sized hp) h

theorem reposition_kind (n : Nat) (c : Channel H) (s : σ) :
    (reposition t n c s).2.1.sizing = .wholeObject ↔ c.sizing = .wholeObject :=
  (reposition_course n c s).keeps (P := fun p => p.channel.sizing = .wholeObject ↔ c.sizing = .wholeObject)
    (fun hp hact => hact.kind.1.trans hp) Iff.rfl

/-- Every operation keeps a channel sized. -/
theorem sized_invariant (t : Transport σ H) : Invariant t fun c _ => Sized c :=
  Invariant.of_acts (fun hp h => h.sized hp)
    (fun {c s} position hp hmoves => by
      obtain ⟨hfits, hadmits⟩ := hp
      refine ⟨hfits, fun r hr => ?_⟩
      rcases hmoves with hnone | hsizing
      · rw [hnone] at hr
        cases hr
      · exact (hadmits r hr).move hsizing _ _)
    (fun hp _ => ⟨hp.fits, hp.admits⟩)

end Channel

end RangeRead
