import Mathlib.Data.List.Forall2
import RangeRead.Proofs.Channel.Laps
import RangeRead.Proofs.Reading
import RangeRead.Proofs.Reporting

/-!
# Sequential mode asks for no more

A channel in sequential mode is a `Whole` one: as on a simple channel, each of its ranges ends with the object. A
delivery on such a channel opens one range at the position, or none, if one stands there (`Delivers.whole`).

Where a simple channel and a whole one go through the same operations side by side, the range of the simple one stands
at the position only if that of the other one does (`Beside`), since a simple channel drops its range with every move.
So an operation opens a range on a channel in sequential mode only if it opens the same range on a simple channel
(`sequential_opens_no_more`).
-/

namespace RangeRead

/-- Where lists are empty or equal to others one by one, they make up a sublist of what the others make up. -/
theorem flatten_sublist_of_forall₂ {α : Type} {xs ys : List (List α)}
    (h : List.Forall₂ (fun x y => x = [] ∨ x = y) xs ys) : xs.flatten.Sublist ys.flatten := by
  induction h with
  | nil => exact .slnil
  | @cons x y xs ys hxy _ ih =>
    rw [List.flatten_cons, List.flatten_cons]
    rcases hxy with rfl | rfl
    · exact ih.trans (List.sublist_append_right y ys.flatten)
    · exact ih.append_left x

namespace Channel

variable {σ σ' H H' ρ ρ' : Type} {t : Transport σ H} {t' : Transport σ' H'} {o : ObjectHandle} {v : View σ H}
  {v' : View σ' H'}

/-! ## Whole channels -/

/-- A sized channel whose ranges all end with the object. -/
structure Whole (c : Channel H) : Prop extends Sized c where
  whole : c.sizing = .wholeObject ∨ c.options.accessPattern = .sequential

/-- The range of a channel stands at its position. -/
def Ready (c : Channel H) : Prop := ∃ r, c.range = some r ∧ r.cursor = c.position

theorem Whole.nextStop {c : Channel H} (h : Whole c) (need : Int) : c.nextStop need = c.object.size := by
  obtain ⟨⟨hfits, -⟩, hwhole⟩ := h
  unfold Channel.nextStop
  cases hsizing : c.sizing with
  | wholeObject => rfl
  | adaptive strategy =>
    rw [hsizing] at hfits hwhole
    have hmode : c.options.accessPattern = .sequential := hwhole.resolve_left fun hsimple => by cases hsimple
    have hfits' := Strategy.rangeEnd_fits hfits c.position need c.object.size
    exact Strategy.rangeEnd_of_sequential (hfits'.sequential hmode)

theorem Whole.stop {c : Channel H} {r : OpenRange H} (h : Whole c) (hr : c.range = some r) :
    r.stop = c.object.size := by
  obtain ⟨⟨hfits, hadmits⟩, hwhole⟩ := h
  have hrange := hadmits r hr
  cases hsizing : c.sizing with
  | wholeObject =>
    rw [hsizing] at hrange
    exact hrange.2
  | adaptive strategy =>
    rw [hsizing] at hfits hwhole hrange
    have hmode : c.options.accessPattern = .sequential := hwhole.resolve_left fun hsimple => by cases hsimple
    exact hrange.2 (hfits.sequential hmode)

/-- Every operation keeps a channel whole. -/
theorem whole_invariant (t : Transport σ H) : Invariant t fun c _ => Whole c := by
  have hsized := sized_invariant t
  have hkind := kind_invariant t fun simple options => simple ∨ options.accessPattern = .sequential
  exact {
    deliver := fun n want gap h hopen hwant =>
      ⟨hsized.deliver n want gap h.toSized hopen hwant, hkind.deliver n want gap h.whole hopen hwant⟩
    moveTo := fun h hopen h0 hle => ⟨hsized.moveTo h.toSized hopen h0 hle, hkind.moveTo h.whole hopen h0 hle⟩
    close := fun h hopen => ⟨hsized.close h.toSized hopen, hkind.close h.whole hopen⟩ }

theorem reposition_whole (n : Nat) {c : Channel H} (s : σ) (h : Whole c) : Whole (reposition t n c s).2.1 :=
  ⟨reposition_sized n s h.toSized, by rw [reposition_kind, (reposition_sameAs n c s).1.options]; exact h.whole⟩

theorem Lap.whole {c c' : Channel H} {windows windows' : List (Int × Int)} (h : Lap (c, windows) (c', windows'))
    (hc : Whole c) : Whole c' :=
  ⟨h.sized hc.toSized, by rw [h.kind, h.sameAs.options]; exact hc.whole⟩

/-! ## Deliveries on whole channels -/

/-- Where a range stands at the position no lap opens another one, since it ends with the object. -/
theorem Lap.of_ready {c c' : Channel H} {windows windows' : List (Int × Int)} (h : Lap (c, windows) (c', windows'))
    (hc : Whole c) (hready : Ready c) : Ready c' ∧ windows' = windows := by
  obtain ⟨r, hr, hcursor⟩ := hready
  cases h with
  | opens hnone =>
    rw [hr] at hnone
    cases hnone
  | @reads _ _ r' h n hr' =>
    cases hr.symm.trans hr'
    exact ⟨⟨_, rfl, congrArg (· + n) hcursor⟩, rfl⟩
  | continues hr' _ hsize => exact absurd (hc.stop hr') hsize

theorem Laps.of_ready {p q : Channel H × List (Int × Int)} (h : Laps p q) (hc : Whole p.1) (hready : Ready p.1) :
    Whole q.1 ∧ Ready q.1 ∧ q.2 = p.2 := by
  induction h with
  | refl => exact ⟨hc, hready, rfl⟩
  | tail _ hlap ih =>
    obtain ⟨hc₁, hready₁, hsame⟩ := ih
    obtain ⟨hready', hsame'⟩ := hlap.of_ready hc₁ hready₁
    exact ⟨hlap.whole hc₁, hready', hsame'.trans hsame⟩

/-- Where no range is open laps open one up to the end of the object, unless there are none. -/
theorem Laps.of_none {c c' : Channel H} {windows windows' : List (Int × Int)} (h : Laps (c, windows) (c', windows'))
    (hc : Whole c) (hr : c.range = none) :
    (c', windows') = (c, windows) ∨ Ready c' ∧ windows' = windows ++ [(c.position, (c.object.size : Int))] := by
  rcases Relation.ReflTransGen.cases_head h with hnone | ⟨⟨c₁, windows₁⟩, hlap, hrest⟩
  · exact .inl hnone.symm
  · have hc₁ := hlap.whole hc
    right
    cases hlap with
    | @opens _ _ need h _ =>
      obtain ⟨-, hready, hsame⟩ := Laps.of_ready hrest hc₁ ⟨_, rfl, rfl⟩
      rw [hc.nextStop need] at hsame
      exact ⟨hready, hsame⟩
    | reads hr' =>
      rw [hr] at hr'
      cases hr'
    | continues hr' _ _ =>
      rw [hr] at hr'
      cases hr'

/-- What a delivery of `want` bytes on a whole channel comes to, which opened these ranges. -/
structure Delivery (c c' : Channel H) (want : Nat) (opened : List (Int × Int)) : Prop where
  ready : Ready c'
  position : c'.position = min (c.position + want) (c.object.size : Int)
  /-- A range that stands at the position is read on. -/
  of_ready : Ready c → opened = []
  of_none : c.range = none → opened = [(c.position, (c.object.size : Int))]
  /-- A range that stands elsewhere is read on or dropped. -/
  opened : opened = [] ∨ opened = [(c.position, (c.object.size : Int))]

/-- A delivery moves the position by what is wanted, or to the end of the object. -/
theorem Delivers.advances (ht : t.Honest o v) {n want : Nat} {gap : Nat → Nat → ByteArray} {c c' : Channel H}
    {s s' : σ} {got : Filling} (h : Delivers t n want gap c s (.done got) c' s') (hp : Placed v o c s) :
    c'.position = min (c.position + want) (c.object.size : Int) := by
  have hmoved := h.position
  have hnothing : 0 ≤ ({} : Filling).count ∧ ({} : Filling).count ≤ want := ⟨Int.le_refl 0, Int.natCast_nonneg want⟩
  obtain ⟨hp', hends⟩ := h.placed ht (count_kept ht want gap) hp hnothing
  obtain ⟨⟨-, hcount⟩, hend⟩ := hends got rfl
  have hle := hp'.le_size
  rw [hp.object]
  omega

theorem Delivers.whole (ht : t.Steady o v) {n want : Nat} {gap : Nat → Nat → ByteArray} {c c' : Channel H}
    {s s' : Listed σ} {got : Filling} (h : Delivers t.listing n want gap c s (.done got) c' s')
    (hp : Placed v.listing o c s) (hc : Whole c) (hwant : 0 < want) :
    ∃ opened, s'.windows = s.windows ++ opened ∧ Delivery c c' want opened := by
  have hposition := h.advances ht.listing.toHonest hp
  obtain ⟨a₁, c₁, s₁, hreposition, ⟨rfl, hlaps⟩ | ⟨hstalled, -⟩, -, hends⟩ := h.laps ht hp hwant
  · have hc₁ := reposition_whole (t := t.listing) n s hc
    have haligned := (reposition_placed (n := n) ht.listing.toHonest hp).2
    obtain ⟨hsame, hbefore⟩ := reposition_sameAs (t := t.listing) n c s
    rw [hreposition] at hc₁ haligned hsame hbefore
    cases hr₁ : c₁.range with
    | some r =>
      obtain ⟨-, hready, hwindows⟩ := Laps.of_ready hlaps hc₁ ⟨r, hr₁, haligned rfl r hr₁⟩
      refine ⟨[], hwindows.trans (List.append_nil _).symm, hready, hposition, fun _ => rfl, fun hr => ?_, .inl rfl⟩
      rw [reposition_of_none n hr] at hreposition
      cases hreposition
      rw [hr] at hr₁
      cases hr₁
    | none =>
      rcases Laps.of_none hlaps hc₁ hr₁ with hnone | ⟨hready, hwindows⟩
      · have hopen := hends got rfl
        rw [(Prod.mk.inj hnone).1, hr₁] at hopen
        cases hopen
      · rw [hbefore, hsame.object] at hwindows
        refine ⟨_, hwindows, hready, hposition, fun ⟨r, hr, hcursor⟩ => ?_, fun _ => rfl, .inr rfl⟩
        rw [reposition_of_range n hr, if_pos hcursor.symm] at hreposition
        cases hreposition
        rw [hr] at hr₁
        cases hr₁
  · cases hstalled

/-! ## Side by side -/

/-- A channel goes through the same operations as a simple one, whose range stands at the position only if its own
does. -/
structure Beside (c : Channel H) (c' : Channel H') : Prop where
  object : c.object = c'.object
  position : c.position = c'.position
  closed : c.closed = c'.closed
  ready : c'.range.isSome → Ready c

/-- The ranges that are opened on the way from `s` to `s₁` are none, or the same as those on the way from `s'` to
`s₁'`. -/
def OpensNoMore (s s₁ : Listed σ) (s' s₁' : Listed σ') : Prop :=
  ∃ opened opened', s₁.windows = s.windows ++ opened ∧ s₁'.windows = s'.windows ++ opened' ∧
    (opened = [] ∨ opened = opened')

theorem OpensNoMore.of_eq {s s₁ : Listed σ} {s' s₁' : Listed σ'} (h : s₁.windows = s.windows)
    (h' : s₁'.windows = s'.windows) : OpensNoMore s s₁ s' s₁' :=
  ⟨[], [], by rw [h, List.append_nil], by rw [h', List.append_nil], .inl rfl⟩

/-- What is known of the two channels before every operation. -/
structure Pair (v : View σ H) (v' : View σ' H') (o : ObjectHandle) (c : Channel H) (s : Listed σ) (c' : Channel H')
    (s' : Listed σ') : Prop where
  placed : Placed v.listing o c s
  placed' : Placed v'.listing o c' s'
  whole : Whole c
  whole' : Whole c'
  simple : c'.sizing = .wholeObject
  beside : Beside c c'

/-- A delivery on both channels. -/
theorem Pair.delivers (ht : t.Steady o v) (ht' : t'.Steady o v') {n n' want : Nat} {gap gap' : Nat → Nat → ByteArray}
    {c c₁ : Channel H} {c' c₁' : Channel H'} {s s₁ : Listed σ} {s' s₁' : Listed σ'} {got got' : Filling}
    (h : Pair v v' o c s c' s') (hd : Delivers t.listing n want gap c s (.done got) c₁ s₁)
    (hd' : Delivers t'.listing n' want gap' c' s' (.done got') c₁' s₁') (hwant : 0 < want) :
    Beside c₁ c₁' ∧ OpensNoMore s s₁ s' s₁' := by
  obtain ⟨hobject, hposition, hclosed, hready⟩ := h.beside
  obtain ⟨opened, hopened, hdelivery⟩ := hd.whole ht h.placed h.whole hwant
  obtain ⟨opened', hopened', hdelivery'⟩ := hd'.whole ht' h.placed' h.whole' hwant
  have hposition' : c₁.position = c₁'.position := by
    rw [hdelivery.position, hdelivery'.position, hposition, hobject]
  refine ⟨⟨hd.sameAs.object.trans (hobject.trans hd'.sameAs.object.symm), hposition',
    hd.sameAs.closed.trans (hclosed.trans hd'.sameAs.closed.symm), fun _ => hdelivery.ready⟩,
    opened, opened', hopened, hopened', ?_⟩
  cases hr : c'.range with
  | none =>
    rw [hdelivery'.of_none hr, ← hposition, ← hobject]
    exact hdelivery.opened
  | some r => exact .inl (hdelivery.of_ready (hready (by rw [hr]; rfl)))

/-! ## Operations -/

/-- Over a steady transport a read that delivers and does not stall is a delivery that comes to its end. -/
theorem perform_delivers (ht : t.Steady o v) {recorder : Option (Recorder ρ)} {memory n : Nat} {operation : Operation}
    {c : Channel H} {w : World (Listed σ) ρ} (hread : operation.isRead = true) (h : c.Engages memory operation)
    (hp : Placed v.listing o c w.transport)
    (hends : (c.perform ⟨t.listing, recorder, memory⟩ n operation w).1 ≠ .stalled) :
    ∃ gap got, Delivers t.listing n (c.wants operation) gap c w.transport (.done got)
      (c.perform ⟨t.listing, recorder, memory⟩ n operation w).2.1
      (c.perform ⟨t.listing, recorder, memory⟩ n operation w).2.2.transport := by
  obtain ⟨gap, hperform, hstalls⟩ := @perform_of_engages _ _ _ ⟨t.listing, recorder, memory⟩ n _ _ hread h w
  obtain ⟨hc, hs⟩ := @deliverAndReport_channel _ _ _ ⟨t.listing, recorder, memory⟩ n (c.wants operation) gap c w
  have hdelivers := delivers_deliver (t := t.listing) n (c.wants operation) gap c w.transport
  rw [hperform, hc, hs]
  cases ha : (deliver t.listing n (c.wants operation) gap c w.transport).1 with
  | done got =>
    rw [ha] at hdelivers
    exact ⟨gap, got, hdelivers⟩
  | failed e =>
    obtain ⟨-, -, -, -, -, hnot, -⟩ := hdelivers.laps ht hp h.2.1
    exact absurd ha (hnot e)
  | stalled => exact absurd (hstalls ((deliverAndReport_stalled gap c w).mpr ha)) hends

section Beside

variable {c : Channel H} {c' : Channel H'} (h : Beside c c')
include h

theorem Beside.asked (k : Option Int) : c.asked k = c'.asked k := by
  unfold Channel.asked
  rw [h.object, h.position]

theorem Beside.wants (operation : Operation) : c.wants operation = c'.wants operation := by
  cases operation with
  | read k => exact congrArg Int.toNat (h.asked k)
  | readAll => exact congrArg Int.toNat (h.asked none)
  | readInto buffer => rfl
  | seek offset whence => rfl
  | tell => rfl
  | close => rfl

theorem Beside.newBuffer (operation : Operation) : c.newBuffer operation = c'.newBuffer operation := by
  cases operation with
  | read k => exact h.asked k
  | readAll => exact h.asked none
  | readInto buffer => rfl
  | seek offset whence => rfl
  | tell => rfl
  | close => rfl

theorem Beside.engages (memory : Nat) (operation : Operation) :
    c.Engages memory operation ↔ c'.Engages memory operation := by
  unfold Engages
  rw [h.closed, h.wants, h.newBuffer]

variable (hsimple : c'.sizing = .wholeObject)
include hsimple

theorem Beside.moveTo (target : Int) (s : σ) (s' : σ') :
    Beside (c.moveTo t target s).1 (c'.moveTo t' target s').1 := by
  obtain ⟨hsame, hposition⟩ := moveTo_sameAs t target c s
  obtain ⟨hsame', hposition'⟩ := moveTo_sameAs t' target c' s'
  refine ⟨hsame.object.trans (h.object.trans hsame'.object.symm), hposition.trans hposition'.symm,
    hsame.closed.trans (h.closed.trans hsame'.closed.symm), fun hr => ?_⟩
  obtain ⟨rfl, hr'⟩ := moveTo_isSome hsimple hr
  rw [← h.position, moveTo_self]
  exact h.ready hr'

theorem Beside.seek (offset whence : Int) (s : σ) (s' : σ') :
    Beside (c.seek t offset whence s).2.1 (c'.seek t' offset whence s').2.1 := by
  unfold Channel.seek
  rw [h.closed, h.position, h.object]
  split
  · exact h
  · split
    · exact h
    · exact h.moveTo hsimple _ s s'

omit hsimple in
theorem Beside.close (s : σ) (s' : σ') : Beside (c.close t s).1 (c'.close t' s').1 := by
  cases hopen : c.closed with
  | true =>
    unfold Channel.close
    rw [if_pos hopen, if_pos (h.closed ▸ hopen)]
    exact h
  | false =>
    rw [close_of_open hopen, close_of_open (h.closed ▸ hopen)]
    obtain ⟨hsame, hposition⟩ := dropRange_sameAs t c s
    obtain ⟨hsame', hposition'⟩ := dropRange_sameAs t' c' s'
    refine ⟨hsame.object.trans (h.object.trans hsame'.object.symm),
      hposition.trans (h.position.trans hposition'.symm), rfl, fun hr => ?_⟩
    rw [dropRange_range] at hr
    cases hr

end Beside

/-! ## Runs -/

/-- The ranges that each of some operations opens. -/
def openedBy (src : Source (Listed σ) H ρ) (n : Nat) :
    List Operation → Channel H → World (Listed σ) ρ → List (List (Int × Int))
  | [], _, _ => []
  | operation :: operations, c, w =>
    let after := c.perform src n operation w
    after.2.2.transport.windows.drop w.transport.windows.length :: openedBy src n operations after.2.1 after.2.2

section Runs

variable (ht : t.Steady o v) (ht' : t'.Steady o v') {recorder : Option (Recorder ρ)} {recorder' : Option (Recorder ρ')}
  {memory n n' : Nat} {c : Channel H} {c' : Channel H'} {w : World (Listed σ) ρ} {w' : World (Listed σ') ρ'}
include ht ht'

/-- An operation on both channels opens no more ranges on the first than on the second one. -/
theorem Pair.beside_perform (h : Pair v v' o c w.transport c' w'.transport) (operation : Operation)
    (hends : (c.perform ⟨t.listing, recorder, memory⟩ n operation w).1 ≠ .stalled)
    (hends' : (c'.perform ⟨t'.listing, recorder', memory⟩ n' operation w').1 ≠ .stalled) :
    let after := c.perform ⟨t.listing, recorder, memory⟩ n operation w
    let after' := c'.perform ⟨t'.listing, recorder', memory⟩ n' operation w'
    Beside after.2.1 after'.2.1 ∧
      OpensNoMore w.transport after.2.2.transport w'.transport after'.2.2.transport := by
  cases hread : operation.isRead with
  | true =>
    by_cases hengages : c.Engages memory operation
    · have hengages' := (h.beside.engages memory operation).mp hengages
      obtain ⟨gap, got, hd⟩ := perform_delivers ht hread hengages h.placed hends
      obtain ⟨gap', got', hd'⟩ := perform_delivers ht' hread hengages' h.placed' hends'
      rw [← h.beside.wants operation] at hd'
      exact h.delivers ht ht' hd hd' hengages.2.1
    · have hengages' := mt (h.beside.engages memory operation).mpr hengages
      have hnothing := @perform_of_not_engages _ _ _ ⟨t.listing, recorder, memory⟩ n _ _ hread hengages w
      have hnothing' := @perform_of_not_engages _ _ _ ⟨t'.listing, recorder', memory⟩ n' _ _ hread hengages' w'
      dsimp only
      rw [hnothing, hnothing']
      exact ⟨h.beside, .of_eq rfl rfl⟩
  | false =>
    cases operation with
    | read k => cases hread
    | readAll => cases hread
    | readInto buffer => cases hread
    | seek offset whence =>
      have hseek : Beside (c.seek t.listing offset whence w.transport).2.1
          (c'.seek t'.listing offset whence w'.transport).2.1 := h.beside.seek h.simple offset whence _ _
      exact ⟨hseek, .of_eq (seek_windows _ _ _ _) (seek_windows _ _ _ _)⟩
    | tell => exact ⟨h.beside, .of_eq rfl rfl⟩
    | close =>
      have hclose : Beside (c.close t.listing w.transport).1 (c'.close t'.listing w'.transport).1 := h.beside.close _ _
      exact ⟨hclose, .of_eq (close_windows _ _) (close_windows _ _)⟩

/-- What is known of the two channels is known after an operation on both. -/
theorem Pair.perform (h : Pair v v' o c w.transport c' w'.transport) (operation : Operation)
    (hends : (c.perform ⟨t.listing, recorder, memory⟩ n operation w).1 ≠ .stalled)
    (hends' : (c'.perform ⟨t'.listing, recorder', memory⟩ n' operation w').1 ≠ .stalled) :
    let after := c.perform ⟨t.listing, recorder, memory⟩ n operation w
    let after' := c'.perform ⟨t'.listing, recorder', memory⟩ n' operation w'
    Pair v v' o after.2.1 after.2.2.transport after'.2.1 after'.2.2.transport := by
  have hbeside := (h.beside_perform ht ht' operation hends hends').1
  have hplaced : Placed v.listing o (c.perform ⟨t.listing, recorder, memory⟩ n operation w).2.1
      (c.perform ⟨t.listing, recorder, memory⟩ n operation w).2.2.transport :=
    (placed_invariant ht.listing.toHonest).perform h.placed n operation
  have hplaced' : Placed v'.listing o (c'.perform ⟨t'.listing, recorder', memory⟩ n' operation w').2.1
      (c'.perform ⟨t'.listing, recorder', memory⟩ n' operation w').2.2.transport :=
    (placed_invariant ht'.listing.toHonest).perform h.placed' n' operation
  have hwhole : Whole (c.perform ⟨t.listing, recorder, memory⟩ n operation w).2.1 :=
    @Invariant.perform _ _ _ ⟨t.listing, recorder, memory⟩ _ (whole_invariant t.listing) c w h.whole n operation
  have hwhole' : Whole (c'.perform ⟨t'.listing, recorder', memory⟩ n' operation w').2.1 :=
    @Invariant.perform _ _ _ ⟨t'.listing, recorder', memory⟩ _ (whole_invariant t'.listing) c' w' h.whole' n' operation
  have hsimple : (c'.perform ⟨t'.listing, recorder', memory⟩ n' operation w').2.1.sizing = .wholeObject :=
    @Invariant.perform _ _ _ ⟨t'.listing, recorder', memory⟩ _ (kind_invariant t'.listing fun simple _ => simple) c' w'
      h.simple n' operation
  exact ⟨hplaced, hplaced', hwhole, hwhole', hsimple, hbeside⟩

/-- So it is with every operation of a run. -/
theorem Pair.run (h : Pair v v' o c w.transport c' w'.transport) (operations : List Operation)
    (hends : ∀ answer ∈ (Channel.run ⟨t.listing, recorder, memory⟩ n operations c w).1, answer ≠ .stalled)
    (hends' : ∀ answer ∈ (Channel.run ⟨t'.listing, recorder', memory⟩ n' operations c' w').1, answer ≠ .stalled) :
    let opened := openedBy ⟨t.listing, recorder, memory⟩ n operations c w
    let opened' := openedBy ⟨t'.listing, recorder', memory⟩ n' operations c' w'
    List.Forall₂ (fun x y => x = [] ∨ x = y) opened opened' ∧
      (Channel.run ⟨t.listing, recorder, memory⟩ n operations c w).2.2.transport.windows =
        w.transport.windows ++ opened.flatten ∧
      (Channel.run ⟨t'.listing, recorder', memory⟩ n' operations c' w').2.2.transport.windows =
        w'.transport.windows ++ opened'.flatten := by
  induction operations generalizing c c' w w' with
  | nil => exact ⟨.nil, (List.append_nil _).symm, (List.append_nil _).symm⟩
  | cons operation operations ih =>
    rw [run_cons, List.forall_mem_cons] at hends hends'
    obtain ⟨-, first, first', hfirst, hfirst', hmore⟩ := h.beside_perform ht ht' operation hends.1 hends'.1
    obtain ⟨hrest, hwindows, hwindows'⟩ := ih (h.perform ht ht' operation hends.1 hends'.1) hends.2 hends'.2
    rw [run_cons, run_cons]
    simp only [openedBy, hfirst, hfirst', List.drop_left, List.flatten_cons]
    refine ⟨.cons hmore hrest, ?_, ?_⟩
    · rw [hwindows, hfirst, List.append_assoc]
    · rw [hwindows', hfirst', List.append_assoc]

end Runs

/-- **In sequential mode an adaptive channel asks for no more than a simple one**, each over its own transport that
does not fail and brings what it is asked for while there is patience. An operation that opens ranges opens the same
ones on the simple channel. -/
theorem sequential_opens_no_more (ht : t.Steady o v) (ht' : t'.Steady o v') {s : σ} {s' : σ'} (hidle : v.idle s)
    (hidle' : v'.idle s') {recorder : Option (Recorder ρ)} {recorder' : Option (Recorder ρ')} {r : ρ} {r' : ρ'}
    {memory n n' : Nat} {options options' : ReadOptions} (hmode : options.accessPattern = .sequential)
    {operations : List Operation}
    (hends : ∀ answer ∈ (run ⟨t.listing, recorder, memory⟩ n operations (adaptive o options) ⟨.start s, r⟩).1,
      answer ≠ .stalled)
    (hends' : ∀ answer ∈ (run ⟨t'.listing, recorder', memory⟩ n' operations (simple o options') ⟨.start s', r'⟩).1,
      answer ≠ .stalled) :
    List.Forall₂ (fun opened opened' => opened = [] ∨ opened = opened')
        (openedBy ⟨t.listing, recorder, memory⟩ n operations (adaptive o options) ⟨.start s, r⟩)
        (openedBy ⟨t'.listing, recorder', memory⟩ n' operations (simple o options') ⟨.start s', r'⟩) ∧
      (run ⟨t.listing, recorder, memory⟩ n operations (adaptive o options)
          ⟨.start s, r⟩).2.2.transport.windows.Sublist
        (run ⟨t'.listing, recorder', memory⟩ n' operations (simple o options')
          ⟨.start s', r'⟩).2.2.transport.windows := by
  have hnew : IsNew (adaptive o options : Channel H) := .adaptive _ _
  have hnew' : IsNew (simple o options' : Channel H') := .simple _ _
  have hbeside : Beside (adaptive o options : Channel H) (simple o options' : Channel H') := ⟨rfl, rfl, rfl, nofun⟩
  have hpair : Pair v v' o (adaptive o options) (World.mk (Listed.start s) r).transport (simple o options')
      (World.mk (Listed.start s') r').transport :=
    ⟨hnew.placed rfl hidle, hnew'.placed rfl hidle', ⟨hnew.sized, .inr hmode⟩, ⟨hnew'.sized, .inl rfl⟩, rfl, hbeside⟩
  obtain ⟨hrel, hwindows, hwindows'⟩ := hpair.run ht ht' operations hends hends'
  refine ⟨hrel, ?_⟩
  rw [hwindows, hwindows']
  exact (flatten_sublist_of_forall₂ hrel).append_left []

/-- So it is where a seek returns and another one is served by skipping a byte: the simple channel opens a range after
each of them. -/
theorem sequential_opens_no_more_returning :
    let object : ObjectHandle := { path := "object", size := 4 }
    let t := Scripted.transport ⟨#[1, 2, 3, 4]⟩
    let src : Source (Listed (List Scripted.Turn)) Scripted.Span Unit := ⟨t.listing, none, 4⟩
    let c : Channel Scripted.Span := adaptive object { accessPattern := .sequential, inplaceSeekLimit := 2 }
    let operations : List Operation :=
      [.read (some 1), .seek 3 0, .seek 1 0, .read (some 1), .seek 1 1, .readInto ⟨#[0, 0]⟩, .seek 0 0, .readAll, .close]
    openedBy src 9 operations c ⟨.start [.delivers 0, .delivers 1], ()⟩ =
        [[(0, 4)], [], [], [], [], [], [], [(0, 4)], []] ∧
      openedBy src 9 operations (simple object .standard) ⟨.start [], ()⟩ =
        [[(0, 4)], [], [], [(1, 4)], [], [(3, 4)], [], [(0, 4)], []] ∧
      (run src 9 operations c ⟨.start [.delivers 0, .delivers 1], ()⟩).2.2.transport.windows.Sublist
        (run src 9 operations (simple object .standard) ⟨.start [], ()⟩).2.2.transport.windows := by
  have ht : (Scripted.transport ⟨#[1, 2, 3, 4]⟩).Steady { path := "object", size := 4 }
      (Scripted.view Scripted.Short) := Scripted.steady rfl
  have hshort : Scripted.Short [.delivers 0, .delivers 1] := by decide
  have hover : Scripted.Short [] := by decide
  exact ⟨by decide +kernel, by decide +kernel,
    (sequential_opens_no_more ht ht hshort hover rfl (by decide +kernel) (by decide +kernel)).2⟩

end Channel

end RangeRead
