import RangeRead.Options.Mapping
import RangeRead.Proofs.Text.Spelling

/-!
# Options one by one

Options are made and changed field by field (`ReadOptions.replace_eq_ok_iff`), and so are settings read from a mapping
(`OptionChanges.ofMapping_eq_ok_iff`); the three sizes are told apart by a `SizeOption` alone. The names of access
patterns and the words for truth values may be in letters of any case (`AccessPattern.ofName?_eq_some_iff`,
`flag?_eq_some_iff`).
-/

namespace RangeRead

/-! ## Words -/

theorem AccessPattern.name_isWord (pattern : AccessPattern) : Text.IsWord pattern.name := by
  cases pattern <;> decide

/-- A text names a pattern if it is the pattern's name in letters of any case. -/
theorem AccessPattern.ofName?_eq_some_iff {s : String} {pattern : AccessPattern} :
    ofName? s = some pattern ↔ Text.Cased pattern.name s := by
  rw [Text.cased_iff pattern.name_isWord]
  unfold ofName?
  constructor
  · intro h
    have hname := List.find?_some h
    exact (eq_of_beq hname).symm
  · intro h
    rw [h]
    cases pattern <;> decide

/-- The words for a truth value. -/
def wordsFor (b : Bool) : List String := if b then yesWords else noWords

theorem isWord_of_mem_wordsFor {b : Bool} {word : String} (h : word ∈ wordsFor b) : Text.IsWord word := by
  revert h word
  cases b <;> decide

/-- A text, without the blanks around it, says a truth value if it is one of the words for it. -/
theorem flag?_eq_some_iff {s : String} {b : Bool} :
    flag? s = some b ↔ ∃ word ∈ wordsFor b, Text.Cased word (Text.trim s) := by
  have hapart : ∀ word ∈ noWords, word ∉ yesWords := by decide
  have hword : (∃ word ∈ wordsFor b, Text.Cased word (Text.trim s)) ↔ (Text.trim s).toLower ∈ wordsFor b := by
    constructor
    · rintro ⟨word, hmem, hcased⟩
      rwa [(Text.cased_iff (isWord_of_mem_wordsFor hmem)).mp hcased]
    · intro hmem
      exact ⟨_, hmem, (Text.cased_iff (isWord_of_mem_wordsFor hmem)).mpr rfl⟩
  rw [hword]
  unfold flag? wordsFor
  generalize (Text.trim s).toLower = word
  dsimp only
  by_cases hyes : word ∈ yesWords
  · rw [if_pos (List.contains_iff_mem.mpr hyes)]
    cases b with
    | true => simpa using hyes
    | false => simpa using fun hno => hapart word hno hyes
  · rw [if_neg (fun h => hyes (List.contains_iff_mem.mp h))]
    cases b with
    | true => simp [hyes]
    | false => simp

/-! ## Sizes -/

def SizeOption.key : SizeOption → String
  | minRangeRequestSize => OptionKey.minRangeRequestSize
  | inplaceSeekLimit => OptionKey.inplaceSeekLimit
  | sequentialThreshold => OptionKey.sequentialThreshold

/-- The least that an option may be. -/
def SizeOption.least : SizeOption → Nat
  | minRangeRequestSize => 1
  | _ => 0

def ReadOptions.size (o : ReadOptions) : SizeOption → Nat
  | .minRangeRequestSize => o.minRangeRequestSize
  | .inplaceSeekLimit => o.inplaceSeekLimit
  | .sequentialThreshold => o.sequentialThreshold

def OptionChanges.size (c : OptionChanges) : SizeOption → Option Setting
  | .minRangeRequestSize => c.minRangeRequestSize
  | .inplaceSeekLimit => c.inplaceSeekLimit
  | .sequentialThreshold => c.sequentialThreshold

theorem ReadOptions.least_le_size (o : ReadOptions) (option : SizeOption) : option.least ≤ o.size option := by
  cases option with
  | minRangeRequestSize => exact o.minRangeRequestSize_pos
  | inplaceSeekLimit => exact Nat.zero_le _
  | sequentialThreshold => exact Nat.zero_le _

/-! ## Changes -/

theorem bind_eq_ok {α β : Type} {x : Except OptionsError α} {f : α → Except OptionsError β} {b : β}
    (h : x >>= f = .ok b) : ∃ a, x = .ok a ∧ f a = .ok b := by
  cases x with
  | error e => cases h
  | ok a => exact ⟨a, rfl, h⟩

/-- Every option is changed by itself. -/
theorem ReadOptions.replace_eq_ok_iff {o o' : ReadOptions} {c : OptionChanges} :
    o.replace c = .ok o' ↔ changed patternFrom o.accessPattern c.accessPattern = .ok o'.accessPattern ∧
      (∀ option, changed (sizeFrom option) (o.size option) (c.size option) = .ok (o'.size option)) ∧
      o'.adaptive = c.adaptive.getD o.adaptive := by
  constructor
  · intro h
    unfold replace at h
    obtain ⟨pattern, hpattern, h⟩ := bind_eq_ok h
    obtain ⟨minimum, hminimum, h⟩ := bind_eq_ok h
    obtain ⟨limit, hlimit, h⟩ := bind_eq_ok h
    obtain ⟨threshold, hthreshold, h⟩ := bind_eq_ok h
    split at h
    · cases h
      refine ⟨hpattern, fun option => ?_, rfl⟩
      cases option with
      | minRangeRequestSize => exact hminimum
      | inplaceSeekLimit => exact hlimit
      | sequentialThreshold => exact hthreshold
    · cases h
  · rintro ⟨hpattern, hsize, hadaptive⟩
    have hminimum : changed (sizeFrom .minRangeRequestSize) o.minRangeRequestSize c.minRangeRequestSize =
        .ok o'.minRangeRequestSize := hsize .minRangeRequestSize
    have hlimit : changed (sizeFrom .inplaceSeekLimit) o.inplaceSeekLimit c.inplaceSeekLimit =
        .ok o'.inplaceSeekLimit := hsize .inplaceSeekLimit
    have hthreshold : changed (sizeFrom .sequentialThreshold) o.sequentialThreshold c.sequentialThreshold =
        .ok o'.sequentialThreshold := hsize .sequentialThreshold
    unfold replace
    rw [hpattern, hminimum, hlimit, hthreshold, ← hadaptive]
    exact dif_pos o'.minRangeRequestSize_pos

/-- Every setting is read by itself. -/
theorem OptionChanges.ofMapping_eq_ok_iff {mapping : String → Option String} {lead : String} {c : OptionChanges} :
    ofMapping mapping lead = .ok c ↔
      c.accessPattern = (mapping (lead ++ OptionKey.accessPattern)).map (fun s => .text (Text.trim s)) ∧
      (∀ option : SizeOption, readInteger (lead ++ option.key) (mapping (lead ++ option.key)) = .ok (c.size option)) ∧
      readFlag (lead ++ OptionKey.adaptive) (mapping (lead ++ OptionKey.adaptive)) = .ok c.adaptive := by
  constructor
  · intro h
    unfold ofMapping at h
    obtain ⟨minimum, hminimum, h⟩ := bind_eq_ok h
    obtain ⟨limit, hlimit, h⟩ := bind_eq_ok h
    obtain ⟨threshold, hthreshold, h⟩ := bind_eq_ok h
    obtain ⟨adaptive, hadaptive, h⟩ := bind_eq_ok h
    cases h
    refine ⟨rfl, fun option => ?_, hadaptive⟩
    cases option with
    | minRangeRequestSize => exact hminimum
    | inplaceSeekLimit => exact hlimit
    | sequentialThreshold => exact hthreshold
  · rintro ⟨hpattern, hsize, hadaptive⟩
    obtain ⟨pattern, minimum, limit, threshold, adaptive⟩ := c
    have hminimum := hsize .minRangeRequestSize
    have hlimit := hsize .inplaceSeekLimit
    have hthreshold := hsize .sequentialThreshold
    dsimp only [SizeOption.key, size] at hpattern hminimum hlimit hthreshold hadaptive
    unfold ofMapping
    dsimp only
    rw [hminimum, hlimit, hthreshold, hadaptive, hpattern]
    rfl

end RangeRead
