import RangeRead.Proofs.Channel.Flows
import RangeRead.Proofs.Channel.Sized
import RangeRead.Proofs.Reading

/-!
# When a read asks for a range

On an adaptive channel, over a transport that does not fail, a read asks for a range exactly if it has one of five
reasons to (`Asks`): no range is open; the position lies behind the cursor of the open range, or beyond the limit for
skipping, or behind the end of the range; or the range ends before what the read wants and before the object does. Up
to the last of these the range does not serve the position (`Serves`), and the new range starts at the position. In the
last case it starts where the open range ends, which is used up first. What is taken from a range that serves the
position are its next bytes, of which exactly those before the position are discarded (`asks_exactly`).
-/

namespace RangeRead.Channel

variable {σ H ρ : Type} {t : Transport σ H} {o : ObjectHandle} {data : ByteArray} {v : View σ H}
  {recorder : Option (Recorder ρ)} {memory : Nat}

/-! ## Reasons to ask for a range -/

/-- Why a read of `want` bytes asks for a range. -/
inductive Asks (c : Channel H) (want : Nat) : Prop
  | noRange (hr : c.range = none)
  | backward {r} (hr : c.range = some r) (h : c.position < r.cursor)
  | far {r} (hr : c.range = some r) (h : c.options.inplaceSeekLimit < c.position - r.cursor)
  | outside {r} (hr : c.range = some r) (h : r.cursor < c.position) (h' : r.stop ≤ c.position)
  | short {r} (hr : c.range = some r) (h : r.stop < c.position + want) (h' : r.stop < c.object.size)

/-- The range `r` serves the position. -/
structure Serves (c : Channel H) (r : OpenRange H) : Prop where
  le : r.cursor ≤ c.position
  near : c.position - r.cursor ≤ c.options.inplaceSeekLimit
  inside : r.cursor < c.position → c.position < r.stop

/-- An adaptive channel keeps the ranges that serve its position. -/
theorem Sized.keeps_iff {c : Channel H} {r : OpenRange H} (h : Sized c) (hadaptive : c.sizing ≠ .wholeObject) :
    c.Keeps r ↔ c.Serves r := by
  have hfits := h.fits
  cases hsizing : c.sizing with
  | wholeObject => exact absurd hsizing hadaptive
  | adaptive strategy =>
    rw [hsizing] at hfits
    have hlimit : strategy.options.inplaceSeekLimit = c.options.inplaceSeekLimit := by rw [hfits.options_eq]
    unfold Keeps
    rw [hsizing]
    simp only [Sizing.canSkip, Strategy.canSkip, Bool.and_eq_true, decide_eq_true_eq, hlimit]
    constructor
    · rintro (hat | ⟨⟨hahead, hnear⟩, hinside⟩)
      · exact ⟨by omega, by omega, fun hlt => by omega⟩
      · exact ⟨by omega, hnear, fun _ => hinside⟩
    · rintro ⟨hle, hnear, hinside⟩
      by_cases hat : c.position = r.cursor
      · exact .inl hat
      · exact .inr ⟨⟨by omega, hnear⟩, hinside (by omega)⟩

theorem asks_of_not_serves {c : Channel H} {r : OpenRange H} (want : Nat) (hr : c.range = some r)
    (h : ¬c.Serves r) : c.Asks want := by
  by_cases hle : r.cursor ≤ c.position
  · by_cases hnear : c.position - r.cursor ≤ c.options.inplaceSeekLimit
    · by_cases hahead : r.cursor < c.position
      · have houtside : ¬c.position < r.stop := fun hlt => h ⟨hle, hnear, fun _ => hlt⟩
        exact .outside hr hahead (by omega)
      · exact absurd ⟨hle, hnear, fun hlt => absurd hlt hahead⟩ h
    · exact .far hr (by omega)
  · exact .backward hr (by omega)

/-- Where the open range serves the position it is the only reason that it is too short. -/
theorem asks_iff_of_serves {c : Channel H} {r : OpenRange H} {want : Nat} (hr : c.range = some r) (h : c.Serves r) :
    c.Asks want ↔ r.stop < c.reach want := by
  obtain ⟨hle, hnear, hinside⟩ := h
  unfold reach
  constructor
  · intro hasks
    cases hasks with
    | noRange hnone =>
      rw [hr] at hnone
      cases hnone
    | backward hr' hlt =>
      cases hr.symm.trans hr'
      omega
    | far hr' hlt =>
      cases hr.symm.trans hr'
      omega
    | outside hr' hlt hstop =>
      cases hr.symm.trans hr'
      have := hinside hlt
      omega
    | short hr' hshort hsize =>
      cases hr.symm.trans hr'
      omega
  · intro hshort
    exact .short hr (by omega) (by omega)

/-! ## What is done with the range -/

/-- What the calls of a read of `want` bytes are to the open range. -/
structure Reopens (data : ByteArray) (c : Channel (Numbered H)) (want : Nat) (made : List Call) : Prop where
  /-- A range is asked for exactly if there is a reason to. -/
  asks : Call.windows made ≠ [] ↔ c.Asks want
  once : (Call.windows made).length ≤ 1
  /-- A range that serves the position gives up its next bytes. Those before the position are skipped, the others are
  delivered, and behind them those of a range that starts where this one ends, if one is asked for. -/
  serves : ∀ r, c.range = some r → c.Serves r → ∃ old new skipped first,
    made = old ++ new ∧ (∀ call ∈ old, call.Reads r.handle.number) ∧ Call.written old = skipped ++ first ∧
    skipped = part data r.cursor c.position ∧ (skipped.size : Int) = c.position - r.cursor ∧
    first = part data c.position (min r.stop (c.reach want)) ∧
    first ++ Call.written new = part data c.position (c.reach want) ∧
    (new = [] ∨ ∃ answer number stop reads, (∀ call ∈ reads, call.Reads number) ∧
      new = .closed r.handle.number answer :: (Call.opening number r.stop stop ++ reads))
  /-- Otherwise all that is delivered comes from a range that starts at the position. -/
  fresh : (∀ r, c.range = some r → ¬c.Serves r) → ∃ closing number stop reads,
    made = closing ++ (Call.opening number c.position stop ++ reads) ∧
    (∀ call ∈ closing, ∃ r answer, c.range = some r ∧ call = .closed r.handle.number answer) ∧
    (∀ call ∈ reads, call.Reads number) ∧ Call.written reads = part data c.position (c.reach want)

/-- One range is asked for where one is opened and read. -/
theorem windows_opening_reads (calls : List Call) {number : Nat} (start stop : Int) {reads : List Call}
    (hcalls : Call.windows calls = []) (hreads : ∀ call ∈ reads, call.Reads number) :
    Call.windows (calls ++ (Call.opening number start stop ++ reads)) = [(start, stop)] := by
  rw [Call.windows_append, Call.windows_append, hcalls, Call.windows_of_reads hreads]
  rfl

/-- Where one range is asked for there has to be a reason. -/
theorem asks_of_window {c : Channel (Numbered H)} {want : Nat} {made : List Call} {window : Int × Int}
    (h : Call.windows made = [window]) (hasks : c.Asks want) :
    (Call.windows made ≠ [] ↔ c.Asks want) ∧ (Call.windows made).length ≤ 1 := by
  rw [h]
  exact ⟨⟨fun _ => hasks, fun _ => List.cons_ne_nil _ _⟩, Nat.le_refl 1⟩

/-- However a read comes by its bytes, it asks for a range only with a reason. -/
theorem Flows.reopens {want : Nat} {c c' : Channel (Numbered H)} {made : List Call}
    (h : Flows data c want c' made) (hsized : Sized c) (hadaptive : c.sizing ≠ .wholeObject)
    (hsize : data.size = o.size) {s : Logged σ} (hp : Placed v.logged o c s) :
    Reopens data c want made := by
  have hreach : c.position ≤ c.reach want := by
    have hle := hp.le_size
    rw [← hp.object] at hle
    unfold reach
    omega
  have hskipped : ∀ {r}, c.range = some r → c.Serves r →
      ((part data r.cursor c.position).size : Int) = c.position - r.cursor := fun {r} hr hserves => by
    have hle := hp.le_size
    exact part_size (hp.range hr).2.nonneg hserves.le (by omega)
  cases h with
  | @opens handle reads hr hreads hwritten =>
    have hwindows := windows_opening_reads [] c.position (c.nextStop want) rfl hreads
    obtain ⟨hasks, honce⟩ := asks_of_window hwindows (.noRange hr)
    refine ⟨hasks, honce, fun r hsome => ?_, fun _ => ⟨[], _, _, reads, rfl, by simp, hreads, hwritten⟩⟩
    rw [hr] at hsome
    cases hsome
  | @leaves r answer handle reads hr hleaves hreads hwritten =>
    have hnot : ¬c.Serves r := fun hserves => hleaves ((hsized.keeps_iff hadaptive).mpr hserves)
    have hwindows := windows_opening_reads [.closed r.handle.number answer] c.position
      ((c.leaving r).nextStop want) rfl hreads
    obtain ⟨hasks, honce⟩ := asks_of_window hwindows (asks_of_not_serves want hr hnot)
    refine ⟨hasks, honce, fun r' hsome hserves => ?_, fun _ => ⟨[.closed r.handle.number answer], _, _, reads, rfl,
      fun call hcall => ⟨r, answer, hr, List.mem_singleton.mp hcall⟩, hreads, hwritten⟩⟩
    cases hr.symm.trans hsome
    exact absurd hserves hnot
  | @stays r handle _ hr hkeeps hstop hreads hwritten =>
    have hserves := (hsized.keeps_iff hadaptive).mp hkeeps
    have hwindows := Call.windows_of_reads hreads
    refine ⟨?_, ?_, fun r' hsome _ => ?_, fun hnone => absurd hserves (hnone r hr)⟩
    · rw [hwindows, asks_iff_of_serves hr hserves]
      exact ⟨fun hne => absurd rfl hne, fun hshort => absurd hstop (Int.not_le.mpr hshort)⟩
    · rw [hwindows]
      exact Nat.zero_le _
    · cases hr.symm.trans hsome
      refine ⟨made, [], _, _, (List.append_nil _).symm, hreads, ?_, rfl, hskipped hr hserves, rfl, ?_, .inl rfl⟩
      · rw [Int.min_eq_right hstop, part_append_part data hserves.le hreach]
        exact hwritten
      · rw [Int.min_eq_right hstop]
        exact ByteArray.append_empty
  | @crosses r old answer handle reads hr hkeeps hshort hold hfirst hreads hwritten =>
    have hserves := (hsized.keeps_iff hadaptive).mp hkeeps
    have hinside : c.position ≤ r.stop := by
      have hle := (hp.range hr).2.le
      have hin := hserves.inside
      have hbefore := hserves.le
      omega
    have hclosing : Call.windows (old ++ [.closed r.handle.number answer]) = [] := by
      rw [Call.windows_append, Call.windows_of_reads hold]
      rfl
    have hwindows := windows_opening_reads (old ++ [.closed r.handle.number answer]) r.stop
      ((c.spending r).nextStop (c.position + want - r.stop)) hclosing hreads
    rw [List.append_assoc] at hwindows
    obtain ⟨hasks, honce⟩ := asks_of_window hwindows ((asks_iff_of_serves hr hserves).mpr hshort)
    refine ⟨hasks, honce, fun r' hsome _ => ?_, fun hnone => absurd hserves (hnone r hr)⟩
    cases hr.symm.trans hsome
    refine ⟨old, _, _, _, rfl, hold, ?_, rfl, hskipped hr hserves, rfl, ?_, .inr ⟨answer, _, _, reads, hreads, rfl⟩⟩
    · rw [Int.min_eq_left (Int.le_of_lt hshort), part_append_part data hserves.le hinside]
      exact hfirst
    · have hnew : Call.written (.closed r.handle.number answer :: (Call.opening handle.number r.stop
          ((c.spending r).nextStop (c.position + want - r.stop)) ++ reads)) = Call.written reads := by
        simp [Call.written, Call.opening, Call.bytes]
      rw [Int.min_eq_left (Int.le_of_lt hshort), hnew, hwritten]
      exact part_append_part data hinside (Int.le_of_lt hshort)

/-! ## Reads -/

/-- A read into a buffer stalls exactly if its delivery does. -/
theorem readInto_stalled {src : Source σ H ρ} {n : Nat} {buffer : ByteArray} {c : Channel H}
    (h : c.Engages src.memory (.readInto buffer)) (w : World σ ρ) :
    (c.readInto src n buffer w).1 = .stalled ↔
      (deliver src.transport n buffer.size buffer.extract c w.transport).1 = .stalled := by
  rw [readInto_of_engages h]
  show Outcome.map _ _ = _ ↔ _
  rw [map_eq_stalled]
  exact deliverAndReport_stalled buffer.extract c w

/-- The bytes of a read that returned lie between the position and where the read ends. -/
theorem readInto_part {src : Source σ H ρ} (ht : src.transport.Truthful o data v) {n : Nat}
    {buffer buffer' : ByteArray} {count : ReadCount} {c c' : Channel H} {w w' : World σ ρ}
    (hp : Placed v o c w.transport) (hbuffer : 0 < buffer.size)
    (h : c.readInto src n buffer w = (.done (count, buffer'), c', w')) :
    let delivered := part data c.position (c.reach buffer.size)
    buffer' = delivered ++ buffer.extract delivered.size buffer.size := by
  have h0 := hp.nonneg
  have hle := hp.le_size
  have hobject := hp.object
  dsimp only
  unfold part reach
  rw [hobject]
  rcases readInto_exact ht hp hbuffer h with ⟨hend, -, rfl, -⟩ | ⟨hlt, bytes, hpart, -, rfl, -⟩
  · have hnone : (min (o.size : Int) (c.position + buffer'.size)).toNat = c.position.toNat := by omega
    rw [hnone, ByteArray.extract_same, ByteArray.empty_append]
    exact ByteArray.extract_zero_size.symm
  · have hstop : (min (o.size : Int) (c.position + buffer.size)).toNat =
        c.position.toNat + min buffer.size (o.size - c.position.toNat) := by omega
    rw [hstop, ← hpart.eq_extract]

/-- **A read asks for a range exactly if it has a reason to**, on every adaptive channel and over every truthful
transport that does not fail. -/
theorem asks_exactly (ht : t.Truthful o data v) (hsteady : t.Steady o v) (hsize : data.size = o.size) {s : σ}
    (hidle : v.idle s) {r : ρ} {c : Channel (Numbered H)} {w : World (Logged σ) ρ}
    (h : Reached ⟨t.logged, recorder, memory⟩ o ⟨.start s, r⟩ c w) (hadaptive : c.sizing ≠ .wholeObject)
    (hopen : c.closed = false) {buffer : ByteArray} (hbuffer : 0 < buffer.size) (n : Nat) :
    let src : Source (Logged σ) (Numbered H) ρ := ⟨t.logged, recorder, memory⟩
    let after := c.readInto src n buffer w
    let delivered := part data c.position (c.reach buffer.size)
    (t.Reliable o data v → 2 * o.size + 1 < n → after.1 ≠ .stalled) ∧
    (after.1 ≠ .stalled → ∃ made, after.2.2.transport.calls = w.transport.calls ++ made ∧
      Reopens data c buffer.size made) ∧
    (after.1 ≠ .stalled → src.Accepts → ∃ count buffer', after.1 = .done (count, buffer')) ∧
    ∀ count buffer', after.1 = .done (count, buffer') →
      buffer' = delivered ++ buffer.extract delivered.size buffer.size := by
  intro src after delivered
  have hstart : v.logged.idle (World.mk (Logged.start s) r).transport := hidle
  have hp : Placed v.logged o c w.transport :=
    (placed_invariant ht.logged.toHonest).reached (fun _ hnew ho => hnew.placed ho hstart) h
  have hsized : Sized c := (sized_invariant t.logged).reached (fun _ hnew _ => hnew.sized) h
  have hengages : c.Engages src.memory (.readInto buffer) := ⟨hopen, hbuffer, Int.natCast_nonneg memory⟩
  have hstalled := @readInto_stalled _ _ _ src n buffer c hengages w
  have hdelivers := delivers_deliver (t := t.logged) n buffer.size buffer.extract c w.transport
  refine ⟨fun hreliable hn => ?_, fun hends => ?_, fun hends haccepts => ?_, fun count buffer' hdone => ?_⟩
  · obtain ⟨got, c', s', hdone⟩ := deliver_total hreliable.logged buffer.extract hp hbuffer hn
    rw [Ne, hstalled]
    intro hstall
    rw [show deliver src.transport n buffer.size buffer.extract c w.transport = _ from hdone] at hstall
    cases hstall
  · obtain ⟨-, made, hcalls, hflows⟩ := hdelivers.flows ht hsteady hp hbuffer fun hstall => hends (hstalled.mpr hstall)
    exact ⟨made, (congrArg Logged.calls (readInto_transport hengages w)).trans hcalls,
      hflows.reopens hsized hadaptive hsize hp⟩
  · obtain ⟨⟨got, hgot⟩, -⟩ := hdelivers.flows ht hsteady hp hbuffer fun hstall => hends (hstalled.mpr hstall)
    have hanswer : after.1 = _ := readInto_answer haccepts hengages w
    rw [hanswer, hgot]
    exact ⟨_, _, rfl⟩
  · exact readInto_part ht.logged hp hbuffer (show c.readInto src n buffer w = (_, _, _) from Prod.ext hdone rfl)

/-- So it is where a range of four bytes is read on behind a skip of one, in short reads: two bytes of it are wanted,
and the range that is asked for starts where it ends. -/
theorem asks_exactly_short :
    let object : ObjectHandle := { path := "object", size := 8 }
    let t := Scripted.transport ⟨#[1, 2, 3, 4, 5, 6, 7, 8]⟩
    let src : Source (Logged (List Scripted.Turn)) (Numbered Scripted.Span) Unit := ⟨t.logged, none, 8⟩
    let c : Channel (Numbered Scripted.Span) := adaptive object { accessPattern := .random, minRangeRequestSize := 4 }
    let before := run src 9 [.read (some 1), .seek 2 0] c ⟨.start [.delivers 1, .delivers 1, .delivers 1], ()⟩
    let after := before.2.1.readInto src 9 ⟨#[0, 0, 0]⟩ before.2.2
    after.1 = .done (.bytes 3, ⟨#[3, 4, 5]⟩) ∧ Call.windows after.2.2.transport.calls = [(0, 4), (4, 8)] ∧
      ∃ made, after.2.2.transport.calls = before.2.2.transport.calls ++ made ∧
        Reopens ⟨#[1, 2, 3, 4, 5, 6, 7, 8]⟩ before.2.1 3 made := by
  have hshort : Scripted.Short [.delivers 1, .delivers 1, .delivers 1] := by decide
  exact ⟨by decide +kernel, by decide +kernel, (asks_exactly (Scripted.truthful Scripted.lasting_short _ _)
    (Scripted.steady rfl) rfl hshort ((Reached.new (.adaptive _ _) rfl).run 9 _) (by decide +kernel) (by decide +kernel)
    (by decide) 9).2.1 (by decide +kernel)⟩

end RangeRead.Channel
