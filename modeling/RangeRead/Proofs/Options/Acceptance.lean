import RangeRead.Proofs.Options.Fields

/-!
# Which mappings are accepted

A mapping is accepted if all that it keeps under the recognised keys is valid (`IsValid`). What is wrong with it may be
told of each key by itself; the error that is raised is the first of these faults, in the order in which the integers
and the flag are read and then all of it is checked (`fault?_ofMapping`). Options therefore hold valid settings, also
if they were obtained by a chain of changes (`Obtained.holds`).
-/

namespace RangeRead

variable {mapping : String → Option String} {lead : String}

/-! ## Valid mappings -/

/-- Whether whatever a mapping has under the recognised keys, each behind `lead`, says something that the options may
be. -/
structure IsValid (mapping : String → Option String) (lead : String) : Prop where
  pattern : ∀ given, mapping (lead ++ OptionKey.accessPattern) = some given →
    ∃ pattern : AccessPattern, Text.Cased pattern.name (Text.trim given)
  size : ∀ (option : SizeOption) (given : String), mapping (lead ++ option.key) = some given →
    ∃ n : Int, Text.integer? given = some n ∧ option.least ≤ n
  adaptive : ∀ given, mapping (lead ++ OptionKey.adaptive) = some given →
    ∃ word ∈ yesWords ++ noWords, Text.Cased word (Text.trim given)

/-! ## Faults -/

/-- The size kept under its key is no integer. -/
def unreadSize (mapping : String → Option String) (lead : String) (option : SizeOption) : Option OptionsError :=
  (mapping (lead ++ option.key)).bind fun given =>
    if (Text.integer? given).isNone then some (.badInteger (lead ++ option.key) given) else none

/-- The truth value kept under its key is none. -/
def unreadFlag (mapping : String → Option String) (lead : String) : Option OptionsError :=
  (mapping (lead ++ OptionKey.adaptive)).bind fun given =>
    if (flag? given).isNone then some (.badFlag (lead ++ OptionKey.adaptive) given) else none

/-- The name kept under the key of the pattern names none. -/
def unknownPattern (mapping : String → Option String) (lead : String) : Option OptionsError :=
  (mapping (lead ++ OptionKey.accessPattern)).bind fun given =>
    if (AccessPattern.ofName? (Text.trim given)).isNone then some (.unknownPattern (.text (Text.trim given))) else none

/-- The integer kept under the key of a size. -/
def givenSize (mapping : String → Option String) (lead : String) (option : SizeOption) : Option Int :=
  (mapping (lead ++ option.key)).bind Text.integer?

def negativeSize (mapping : String → Option String) (lead : String) (option : SizeOption) : Option OptionsError :=
  (givenSize mapping lead option).bind fun n => if n < 0 then some (.negative option n) else none

def emptyRequests (mapping : String → Option String) (lead : String) : Option OptionsError :=
  if givenSize mapping lead .minRangeRequestSize = some 0 then some .emptyRequests else none

/-- All that is wrong with a mapping, in the order in which it is found. -/
def faults (mapping : String → Option String) (lead : String) : List OptionsError :=
  [unreadSize mapping lead .minRangeRequestSize, unreadSize mapping lead .inplaceSeekLimit,
    unreadSize mapping lead .sequentialThreshold, unreadFlag mapping lead, unknownPattern mapping lead,
    negativeSize mapping lead .minRangeRequestSize, negativeSize mapping lead .inplaceSeekLimit,
    negativeSize mapping lead .sequentialThreshold, emptyRequests mapping lead].filterMap id

/-! ## What goes wrong first -/

/-- The error that there is instead of an answer. -/
def fault? {α : Type} : Except OptionsError α → Option OptionsError
  | .error e => some e
  | .ok _ => none

theorem fault?_eq_some_iff {α : Type} {x : Except OptionsError α} {e : OptionsError} :
    fault? x = some e ↔ x = .error e := by
  cases x <;> simp [fault?]

theorem fault?_eq_none_iff {α : Type} {x : Except OptionsError α} : fault? x = none ↔ ∃ a, x = .ok a := by
  cases x <;> simp [fault?]

/-- What goes wrong in two steps goes wrong in the first, or else in the second. -/
theorem fault?_bind {α β : Type} {x : Except OptionsError α} {f : α → Except OptionsError β}
    {rest : Option OptionsError} (h : ∀ a, x = .ok a → fault? (f a) = rest) :
    fault? (x >>= f) = (fault? x).or rest := by
  cases x with
  | error e => rfl
  | ok a => exact h a rfl

theorem fault?_readInteger (option : SizeOption) :
    fault? (readInteger (lead ++ option.key) (mapping (lead ++ option.key))) = unreadSize mapping lead option := by
  unfold unreadSize readInteger
  cases mapping (lead ++ option.key) with
  | none => rfl
  | some given =>
    dsimp only [Option.bind_some]
    cases Text.integer? given <;> rfl

theorem fault?_readFlag : fault? (readFlag (lead ++ OptionKey.adaptive) (mapping (lead ++ OptionKey.adaptive))) =
    unreadFlag mapping lead := by
  unfold unreadFlag readFlag
  cases mapping (lead ++ OptionKey.adaptive) with
  | none => rfl
  | some given =>
    dsimp only [Option.bind_some]
    cases flag? given <;> rfl

/-- Settings that are read are what the mapping keeps. -/
theorem readInteger_ok {option : SizeOption} {setting : Option Setting}
    (h : readInteger (lead ++ option.key) (mapping (lead ++ option.key)) = .ok setting) :
    setting = (givenSize mapping lead option).map .whole := by
  unfold readInteger at h
  unfold givenSize
  cases hgiven : mapping (lead ++ option.key) with
  | none =>
    rw [hgiven] at h
    cases h
    rfl
  | some given =>
    rw [hgiven] at h
    dsimp only [Option.bind_some] at h ⊢
    cases hread : Text.integer? given with
    | none =>
      rw [hread] at h
      cases h
    | some n =>
      rw [hread] at h
      cases h
      rfl

theorem fault?_changed_pattern (old : AccessPattern) :
    fault? (changed patternFrom old
        ((mapping (lead ++ OptionKey.accessPattern)).map fun s => .text (Text.trim s))) =
      unknownPattern mapping lead := by
  unfold unknownPattern changed patternFrom
  cases mapping (lead ++ OptionKey.accessPattern) with
  | none => rfl
  | some given =>
    dsimp only [Option.map_some, Option.bind_some]
    cases AccessPattern.ofName? (Text.trim given) <;> rfl

theorem fault?_changed_size (option : SizeOption) (old : Nat) :
    fault? (changed (sizeFrom option) old ((givenSize mapping lead option).map .whole)) =
      negativeSize mapping lead option := by
  unfold negativeSize changed sizeFrom
  cases givenSize mapping lead option with
  | none => rfl
  | some n =>
    dsimp only [Option.map_some, Option.bind_some]
    by_cases hneg : n < 0
    · rw [if_pos hneg, if_pos hneg]
      rfl
    · rw [if_neg hneg, if_neg hneg]
      rfl

/-- The size of the smallest request is zero only if the mapping says so. -/
theorem changed_size_zero {old n : Nat} (hold : 0 < old)
    (h : changed (sizeFrom .minRangeRequestSize) old
      ((givenSize mapping lead .minRangeRequestSize).map .whole) = .ok n) :
    0 < n ↔ givenSize mapping lead .minRangeRequestSize ≠ some 0 := by
  cases hgiven : givenSize mapping lead .minRangeRequestSize with
  | none =>
    rw [hgiven] at h
    cases h
    simpa using hold
  | some k =>
    rw [hgiven] at h
    unfold changed sizeFrom at h
    dsimp only [Option.map_some] at h
    split at h
    · cases h
    · cases h
      simp
      omega

/-- What goes wrong while a mapping is read. -/
theorem fault?_ofMapping_changes : fault? (OptionChanges.ofMapping mapping lead) =
    (unreadSize mapping lead .minRangeRequestSize).or ((unreadSize mapping lead .inplaceSeekLimit).or
      ((unreadSize mapping lead .sequentialThreshold).or ((unreadFlag mapping lead).or none))) := by
  rw [← fault?_readInteger .minRangeRequestSize, ← fault?_readInteger .inplaceSeekLimit,
    ← fault?_readInteger .sequentialThreshold, ← fault?_readFlag]
  unfold OptionChanges.ofMapping
  refine fault?_bind fun _ _ => ?_
  refine fault?_bind fun _ _ => ?_
  refine fault?_bind fun _ _ => ?_
  exact fault?_bind fun _ _ => rfl

/-- What goes wrong when settings that were read from a mapping are checked. -/
theorem fault?_ofChanges {c : OptionChanges} (h : OptionChanges.ofMapping mapping lead = .ok c) :
    fault? (ReadOptions.ofChanges c) = (unknownPattern mapping lead).or
      ((negativeSize mapping lead .minRangeRequestSize).or ((negativeSize mapping lead .inplaceSeekLimit).or
        ((negativeSize mapping lead .sequentialThreshold).or ((emptyRequests mapping lead).or none)))) := by
  obtain ⟨hpattern, hsize, -⟩ := OptionChanges.ofMapping_eq_ok_iff.mp h
  have hminimum : c.minRangeRequestSize = _ := readInteger_ok (hsize .minRangeRequestSize)
  have hlimit : c.inplaceSeekLimit = _ := readInteger_ok (hsize .inplaceSeekLimit)
  have hthreshold : c.sequentialThreshold = _ := readInteger_ok (hsize .sequentialThreshold)
  unfold ReadOptions.ofChanges ReadOptions.replace
  rw [hpattern, hminimum, hlimit, hthreshold, ← fault?_changed_pattern ReadOptions.standard.accessPattern,
    ← fault?_changed_size .minRangeRequestSize ReadOptions.standard.minRangeRequestSize,
    ← fault?_changed_size .inplaceSeekLimit ReadOptions.standard.inplaceSeekLimit,
    ← fault?_changed_size .sequentialThreshold ReadOptions.standard.sequentialThreshold]
  refine fault?_bind fun _ _ => fault?_bind fun minimum hok => fault?_bind fun _ _ => fault?_bind fun _ _ => ?_
  have hzero := changed_size_zero ReadOptions.standard.minRangeRequestSize_pos hok
  unfold emptyRequests
  by_cases hpos : 0 < minimum
  · rw [dif_pos hpos, if_neg (hzero.mp hpos)]
    rfl
  · rw [dif_neg hpos, if_pos (by simpa [hzero] using hpos)]
    rfl

/-- What goes wrong first is the first of the faults. -/
theorem fault?_ofMapping : fault? (ReadOptions.ofMapping mapping lead) = (faults mapping lead).head? := by
  have hfirst : ∀ (fault : Option OptionsError) (faults : List (Option OptionsError)),
      (fault :: faults).findSome? id = fault.or (faults.findSome? id) := by
    intro fault faults
    cases fault <;> rfl
  have hboth : fault? (ReadOptions.ofMapping mapping lead) =
      (fault? (OptionChanges.ofMapping mapping lead)).or _ := fault?_bind fun c hc => fault?_ofChanges hc
  unfold faults
  rw [List.head?_filterMap, hboth, fault?_ofMapping_changes]
  simp only [hfirst, List.findSome?_nil, Option.or_assoc, Option.none_or]

/-! ## Nothing wrong -/

theorem unknownPattern_eq_none_iff : unknownPattern mapping lead = none ↔
    ∀ given, mapping (lead ++ OptionKey.accessPattern) = some given →
      ∃ pattern : AccessPattern, Text.Cased pattern.name (Text.trim given) := by
  unfold unknownPattern
  cases mapping (lead ++ OptionKey.accessPattern) with
  | none => simp
  | some given =>
    have hname : AccessPattern.ofName? (Text.trim given) = none ↔
        ¬ ∃ pattern : AccessPattern, Text.Cased pattern.name (Text.trim given) := by
      simp only [← AccessPattern.ofName?_eq_some_iff]
      rw [Option.eq_none_iff_forall_ne_some, not_exists]
    simp [hname]

theorem unreadFlag_eq_none_iff : unreadFlag mapping lead = none ↔
    ∀ given, mapping (lead ++ OptionKey.adaptive) = some given →
      ∃ word ∈ yesWords ++ noWords, Text.Cased word (Text.trim given) := by
  unfold unreadFlag
  cases mapping (lead ++ OptionKey.adaptive) with
  | none => simp
  | some given =>
    have hwords : (∃ b, ∃ word ∈ wordsFor b, Text.Cased word (Text.trim given)) ↔
        ∃ word ∈ yesWords ++ noWords, Text.Cased word (Text.trim given) := by
      simp [wordsFor, or_and_right, exists_or, or_comm]
    have hflag : flag? given = none ↔ ¬ ∃ word ∈ yesWords ++ noWords, Text.Cased word (Text.trim given) := by
      rw [← hwords]
      simp only [← flag?_eq_some_iff]
      rw [Option.eq_none_iff_forall_ne_some, not_exists]
    simp [hflag]

/-- A size is valid if it is an integer that is neither negative nor, where requests must not be empty, zero. -/
theorem size_valid_iff (option : SizeOption) :
    (unreadSize mapping lead option = none ∧ negativeSize mapping lead option = none ∧
      (option = .minRangeRequestSize → givenSize mapping lead option ≠ some 0)) ↔
    ∀ given, mapping (lead ++ option.key) = some given →
      ∃ n : Int, Text.integer? given = some n ∧ option.least ≤ n := by
  unfold unreadSize negativeSize givenSize
  cases mapping (lead ++ option.key) with
  | none => simp
  | some given =>
    cases hread : Text.integer? given with
    | none => simp [hread]
    | some n =>
      cases option with
      | minRangeRequestSize => simp [hread, SizeOption.least]; omega
      | inplaceSeekLimit => simp [hread, SizeOption.least]
      | sequentialThreshold => simp [hread, SizeOption.least]

/-- A mapping is valid if nothing is wrong with it. -/
theorem faults_eq_nil_iff : faults mapping lead = [] ↔ IsValid mapping lead := by
  have hzero : emptyRequests mapping lead = none ↔ givenSize mapping lead .minRangeRequestSize ≠ some 0 := by
    simp [emptyRequests]
  unfold faults
  rw [List.filterMap_eq_nil_iff]
  simp only [List.forall_mem_cons, id_eq, List.not_mem_nil, false_imp_iff, implies_true, and_true, hzero,
    unreadFlag_eq_none_iff, unknownPattern_eq_none_iff]
  constructor
  · rintro ⟨hminimum, hlimit, hthreshold, hflag, hpattern, hminimum', hlimit', hthreshold', hempty⟩
    refine ⟨hpattern, fun option => (size_valid_iff option).mp ?_, hflag⟩
    cases option with
    | minRangeRequestSize => exact ⟨hminimum, hminimum', fun _ => hempty⟩
    | inplaceSeekLimit => exact ⟨hlimit, hlimit', nofun⟩
    | sequentialThreshold => exact ⟨hthreshold, hthreshold', nofun⟩
  · intro h
    obtain ⟨hminimum, hminimum', hempty⟩ := (size_valid_iff .minRangeRequestSize).mpr (h.size .minRangeRequestSize)
    obtain ⟨hlimit, hlimit', -⟩ := (size_valid_iff .inplaceSeekLimit).mpr (h.size .inplaceSeekLimit)
    obtain ⟨hthreshold, hthreshold', -⟩ := (size_valid_iff .sequentialThreshold).mpr (h.size .sequentialThreshold)
    exact ⟨hminimum, hlimit, hthreshold, h.adaptive, h.pattern, hminimum', hlimit', hthreshold', hempty rfl⟩

/-! ## Chains of changes -/

/-- The settings of the first changes, and those of the second ones where these give none. -/
def OptionChanges.over (c c' : OptionChanges) : OptionChanges where
  accessPattern := c.accessPattern.or c'.accessPattern
  minRangeRequestSize := c.minRangeRequestSize.or c'.minRangeRequestSize
  inplaceSeekLimit := c.inplaceSeekLimit.or c'.inplaceSeekLimit
  sequentialThreshold := c.sequentialThreshold.or c'.sequentialThreshold
  adaptive := c.adaptive.or c'.adaptive

theorem OptionChanges.over_size (c c' : OptionChanges) (option : SizeOption) :
    (c.over c').size option = (c.size option).or (c'.size option) := by
  cases option <;> rfl

/-- `Obtained c o`: the options `o` were made of settings, read from a mapping, or made of such options by replacing
some, again and again; `c` are the settings that were given last. -/
inductive Obtained : OptionChanges → ReadOptions → Prop
  | settings {c : OptionChanges} {o : ReadOptions} (h : ReadOptions.ofChanges c = .ok o) : Obtained c o
  | mapping {mapping : String → Option String} {lead : String} {c : OptionChanges} {o : ReadOptions}
      (hread : OptionChanges.ofMapping mapping lead = .ok c) (h : ReadOptions.ofMapping mapping lead = .ok o) :
    Obtained c o
  | replaced {c c' : OptionChanges} {o o' : ReadOptions} (h : Obtained c o) (hreplace : o.replace c' = .ok o') :
    Obtained (c'.over c) o'

/-- Whether options hold the settings that were given, all of which are valid, and the defaults where none was. -/
structure Holds (c : OptionChanges) (o : ReadOptions) : Prop where
  pattern : (c.accessPattern = none → o.accessPattern = ReadOptions.standard.accessPattern) ∧
    ∀ given, c.accessPattern = some given → ∃ s, given = .text s ∧ Text.Cased o.accessPattern.name s
  size : ∀ option, (c.size option = none → o.size option = ReadOptions.standard.size option) ∧
    ∀ given, c.size option = some given → given = .whole (o.size option)
  least : ∀ option : SizeOption, option.least ≤ o.size option
  adaptive : o.adaptive = c.adaptive.getD ReadOptions.standard.adaptive

theorem patternFrom_eq_ok {given : Setting} {pattern : AccessPattern} (h : patternFrom given = .ok pattern) :
    ∃ s, given = .text s ∧ Text.Cased pattern.name s := by
  unfold patternFrom at h
  split at h
  · rename_i s
    split at h
    · rename_i hname
      cases h
      exact ⟨s, rfl, AccessPattern.ofName?_eq_some_iff.mp hname⟩
    · cases h
  · cases h

theorem sizeFrom_eq_ok {option : SizeOption} {given : Setting} {n : Nat} (h : sizeFrom option given = .ok n) :
    given = .whole n := by
  unfold sizeFrom at h
  split at h
  · split at h
    · cases h
    · cases h
      rw [Int.toNat_of_nonneg (by omega)]
  · cases h

theorem standard_holds : Holds {} ReadOptions.standard where
  pattern := ⟨fun _ => rfl, nofun⟩
  size option := by cases option <;> exact ⟨fun _ => rfl, nofun⟩
  least := ReadOptions.standard.least_le_size
  adaptive := rfl

/-- Changes are held where they are given, and elsewhere what was held before. -/
theorem Holds.replaced {c c' : OptionChanges} {o o' : ReadOptions} (h : Holds c o) (hreplace : o.replace c' = .ok o') :
    Holds (c'.over c) o' := by
  obtain ⟨hpattern, hsize, hadaptive⟩ := ReadOptions.replace_eq_ok_iff.mp hreplace
  refine ⟨?_, fun option => ?_, o'.least_le_size, ?_⟩
  · have hover : (c'.over c).accessPattern = c'.accessPattern.or c.accessPattern := rfl
    rw [hover]
    cases hgiven : c'.accessPattern with
    | none =>
      rw [hgiven] at hpattern
      have hsame : o.accessPattern = o'.accessPattern := Except.ok.inj hpattern
      rw [Option.none_or, ← hsame]
      exact h.pattern
    | some given =>
      rw [hgiven] at hpattern
      refine ⟨nofun, fun given' hgiven' => ?_⟩
      cases hgiven'
      exact patternFrom_eq_ok hpattern
  · rw [OptionChanges.over_size]
    have hoption := hsize option
    cases hgiven : c'.size option with
    | none =>
      rw [hgiven] at hoption
      have hsame : o.size option = o'.size option := Except.ok.inj hoption
      rw [Option.none_or, ← hsame]
      exact h.size option
    | some given =>
      rw [hgiven] at hoption
      refine ⟨nofun, fun given' hgiven' => ?_⟩
      cases hgiven'
      exact sizeFrom_eq_ok hoption
  · show o'.adaptive = (c'.adaptive.or c.adaptive).getD _
    rw [hadaptive, h.adaptive]
    cases c'.adaptive <;> rfl

/-- Options that were made of settings hold them. -/
theorem ofChanges_holds {c : OptionChanges} {o : ReadOptions} (h : ReadOptions.ofChanges c = .ok o) : Holds c o := by
  have hholds := standard_holds.replaced h
  have hsame : c.over {} = c := by
    unfold OptionChanges.over
    simp only [Option.or_none]
  rwa [hsame] at hholds

/-- Options hold the settings that were given last, by whatever chain they were obtained. -/
theorem Obtained.holds {c : OptionChanges} {o : ReadOptions} (h : Obtained c o) : Holds c o := by
  induction h with
  | settings h => exact ofChanges_holds h
  | mapping hread h =>
    unfold ReadOptions.ofMapping at h
    rw [hread] at h
    exact ofChanges_holds h
  | replaced _ hreplace ih => exact ih.replaced hreplace

/-- **Exactly the valid mappings are accepted**, and of several things that are wrong with one the first is told, as an
invalid value. So all options, however they were obtained, hold valid settings. -/
theorem accepts_exactly (mapping : String → Option String) (lead : String) :
    ((∃ o, ReadOptions.ofMapping mapping lead = .ok o) ↔ IsValid mapping lead) ∧
    (∀ e, ReadOptions.ofMapping mapping lead = .error e ↔ (faults mapping lead).head? = some e) ∧
    (∀ e, ReadOptions.ofMapping mapping lead = .error e → e.kind = .invalidValue) ∧
    ∀ {c : OptionChanges} {o : ReadOptions}, Obtained c o → Holds c o := by
  refine ⟨?_, fun e => ?_, fun _ _ => rfl, Obtained.holds⟩
  · rw [← faults_eq_nil_iff, ← fault?_eq_none_iff, fault?_ofMapping, List.head?_eq_none_iff]
  · rw [← fault?_eq_some_iff, fault?_ofMapping]

/-- So it is for a mapping with five things wrong: no integer is told first, and not the flag, the pattern or what the
integers are. -/
theorem accepts_exactly_first :
    let mapping : String → Option String := fun key =>
      [(OptionKey.accessPattern, "zigzag"), (OptionKey.minRangeRequestSize, "0"), (OptionKey.inplaceSeekLimit, "1e6"),
        (OptionKey.sequentialThreshold, " -1 "), (OptionKey.adaptive, "maybe")].lookup key
    ReadOptions.ofMapping mapping "" = .error (.badInteger OptionKey.inplaceSeekLimit "1e6") ∧
      ∃ o, Obtained { minRangeRequestSize := some (.whole 7) } o ∧ o.minRangeRequestSize = 7 ∧
        Holds { minRangeRequestSize := some (.whole 7) } o := by
  intro mapping
  have hobtained : Obtained { minRangeRequestSize := some (.whole 7) } { minRangeRequestSize := 7 } := .settings rfl
  exact ⟨((accepts_exactly mapping "").2.1 _).mpr rfl, _, hobtained, rfl, (accepts_exactly mapping "").2.2.2 hobtained⟩

end RangeRead
