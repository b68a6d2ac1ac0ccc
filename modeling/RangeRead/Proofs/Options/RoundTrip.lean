import RangeRead.Proofs.Options.Fields

/-!
# Options survive being written and read

Options that are stored in a mapping, as texts in any of the spellings that are accepted and for any choice of the
fields, are read back on these fields, whatever else the mapping has (`ofMapping_of_stored`). As raw settings they
survive as a whole (`replace_toChanges`).
-/

namespace RangeRead

/-! ## Fields -/

/-- What the options consist of. -/
inductive OptionField
  | accessPattern
  | size (option : SizeOption)
  | adaptive

def OptionField.key : OptionField → String
  | accessPattern => OptionKey.accessPattern
  | size option => option.key
  | adaptive => OptionKey.adaptive

namespace ReadOptions

variable {o : ReadOptions} {chosen : OptionField → Bool} {mapping : String → Option String} {lead : String}

/-- Whether a text says what the options hold in a field: names and words in letters of any case, numbers in decimal
digits, and all of these with any blanks around them. -/
def Writes (o : ReadOptions) (s : String) : OptionField → Prop
  | .accessPattern => ∃ cased, Text.Cased o.accessPattern.name cased ∧ Text.Padded cased s
  | .size option => Text.isWritable (o.size option) = true ∧ Text.Padded (toString (o.size option)) s
  | .adaptive => ∃ b word cased, o.adaptive = .flag b ∧ word ∈ wordsFor b ∧ Text.Cased word cased ∧ Text.Padded cased s

/-- Whether a mapping stores the chosen fields of the options, and no other field, each behind `lead`. It may have any
other keys. -/
def Stored (o : ReadOptions) (chosen : OptionField → Bool) (mapping : String → Option String) (lead : String) : Prop :=
  ∀ field : OptionField, if chosen field then ∃ s, mapping (lead ++ field.key) = some s ∧ o.Writes s field
    else mapping (lead ++ field.key) = none

/-- The options on the chosen fields, and the defaults on the others. -/
def onlyOn (o : ReadOptions) (chosen : OptionField → Bool) : ReadOptions where
  accessPattern := if chosen .accessPattern then o.accessPattern else standard.accessPattern
  minRangeRequestSize :=
    if chosen (.size .minRangeRequestSize) then o.minRangeRequestSize else standard.minRangeRequestSize
  inplaceSeekLimit := if chosen (.size .inplaceSeekLimit) then o.inplaceSeekLimit else standard.inplaceSeekLimit
  sequentialThreshold :=
    if chosen (.size .sequentialThreshold) then o.sequentialThreshold else standard.sequentialThreshold
  adaptive := if chosen .adaptive then o.adaptive else standard.adaptive
  minRangeRequestSize_pos := by
    split
    · exact o.minRangeRequestSize_pos
    · exact standard.minRangeRequestSize_pos

theorem onlyOn_size (o : ReadOptions) (chosen : OptionField → Bool) (option : SizeOption) :
    (o.onlyOn chosen).size option = if chosen (.size option) then o.size option else standard.size option := by
  cases option <;> rfl

/-! ## Mappings -/

/-- The settings that are read from a mapping that stores the chosen fields. -/
def chosenChanges (o : ReadOptions) (chosen : OptionField → Bool) (pattern : Option Setting) : OptionChanges where
  accessPattern := pattern
  minRangeRequestSize := if chosen (.size .minRangeRequestSize) then some (.whole o.minRangeRequestSize) else none
  inplaceSeekLimit := if chosen (.size .inplaceSeekLimit) then some (.whole o.inplaceSeekLimit) else none
  sequentialThreshold := if chosen (.size .sequentialThreshold) then some (.whole o.sequentialThreshold) else none
  adaptive := if chosen .adaptive then some o.adaptive else none

theorem chosenChanges_size (o : ReadOptions) (chosen : OptionField → Bool) (pattern : Option Setting)
    (option : SizeOption) : (o.chosenChanges chosen pattern).size option =
      if chosen (.size option) then some (.whole (o.size option)) else none := by
  cases option <;> rfl

theorem Stored.mem (h : o.Stored chosen mapping lead) {field : OptionField} (hchosen : chosen field = true) :
    ∃ s, mapping (lead ++ field.key) = some s ∧ o.Writes s field := by
  have hfield := h field
  rwa [if_pos hchosen] at hfield

theorem Stored.not_mem (h : o.Stored chosen mapping lead) {field : OptionField} (hchosen : ¬ chosen field = true) :
    mapping (lead ++ field.key) = none := by
  have hfield := h field
  rwa [if_neg hchosen] at hfield

theorem Stored.readInteger (h : o.Stored chosen mapping lead) (option : SizeOption) :
    RangeRead.readInteger (lead ++ option.key) (mapping (lead ++ option.key)) =
      .ok (if chosen (.size option) then some (.whole (o.size option)) else none) := by
  by_cases hchosen : chosen (.size option)
  · obtain ⟨s, hs, hwritable, hpadded⟩ := h.mem hchosen
    have hs' : mapping (lead ++ option.key) = some s := hs
    rw [hs', if_pos hchosen]
    unfold RangeRead.readInteger
    dsimp only
    rw [Text.integer?_padded hpadded hwritable]
  · have hs : mapping (lead ++ option.key) = none := h.not_mem hchosen
    rw [hs, if_neg hchosen]
    rfl

theorem Stored.readFlag (h : o.Stored chosen mapping lead) :
    RangeRead.readFlag (lead ++ OptionKey.adaptive) (mapping (lead ++ OptionKey.adaptive)) =
      .ok (if chosen .adaptive then some o.adaptive else none) := by
  by_cases hchosen : chosen .adaptive
  · obtain ⟨s, hs, b, word, cased, hflag, hword, hcased, hpadded⟩ := h.mem hchosen
    have hs' : mapping (lead ++ OptionKey.adaptive) = some s := hs
    have htrim : Text.trim s = cased := Text.trim_cased (isWord_of_mem_wordsFor hword) hcased hpadded
    have hread : flag? s = some b := flag?_eq_some_iff.mpr ⟨word, hword, by rwa [htrim]⟩
    rw [hs', if_pos hchosen, hflag]
    unfold RangeRead.readFlag
    dsimp only
    rw [hread]
  · have hs : mapping (lead ++ OptionKey.adaptive) = none := h.not_mem hchosen
    rw [hs, if_neg hchosen]
    rfl

theorem Stored.pattern (h : o.Stored chosen mapping lead) :
    changed patternFrom standard.accessPattern
        ((mapping (lead ++ OptionKey.accessPattern)).map fun s => .text (Text.trim s)) =
      .ok (if chosen .accessPattern then o.accessPattern else standard.accessPattern) := by
  by_cases hchosen : chosen .accessPattern
  · obtain ⟨s, hs, cased, hcased, hpadded⟩ := h.mem hchosen
    have hs' : mapping (lead ++ OptionKey.accessPattern) = some s := hs
    rw [hs', if_pos hchosen, Option.map_some, Text.trim_cased o.accessPattern.name_isWord hcased hpadded]
    unfold changed patternFrom
    dsimp only
    rw [AccessPattern.ofName?_eq_some_iff.mpr hcased]
  · have hs : mapping (lead ++ OptionKey.accessPattern) = none := h.not_mem hchosen
    rw [hs, if_neg hchosen]
    rfl

theorem sizeFrom_natCast (option : SizeOption) (n : Nat) : sizeFrom option (.whole n) = .ok n := by
  unfold sizeFrom
  dsimp only
  rw [if_neg (by omega), Int.toNat_natCast]

/-- What a mapping stores of the options is read back. -/
theorem ofMapping_of_stored (h : o.Stored chosen mapping lead) : ofMapping mapping lead = .ok (o.onlyOn chosen) := by
  have hread : OptionChanges.ofMapping mapping lead =
      .ok (o.chosenChanges chosen
        ((mapping (lead ++ OptionKey.accessPattern)).map fun s => .text (Text.trim s))) := by
    refine OptionChanges.ofMapping_eq_ok_iff.mpr ⟨rfl, fun option => ?_, h.readFlag⟩
    rw [chosenChanges_size]
    exact h.readInteger option
  unfold ofMapping
  rw [hread]
  refine replace_eq_ok_iff.mpr ⟨h.pattern, fun option => ?_, ?_⟩
  · rw [chosenChanges_size, onlyOn_size]
    by_cases hchosen : chosen (.size option)
    · rw [if_pos hchosen, if_pos hchosen]
      exact sizeFrom_natCast option (o.size option)
    · rw [if_neg hchosen, if_neg hchosen]
      rfl
  · by_cases hchosen : chosen .adaptive <;> simp [onlyOn, chosenChanges, hchosen]

/-! ## Raw settings -/

/-- Replaced by the settings of others, options are those others. -/
theorem replace_toChanges (o o' : ReadOptions) : o.replace o'.toChanges = .ok o' := by
  refine replace_eq_ok_iff.mpr ⟨?_, fun option => ?_, rfl⟩
  · have hname : AccessPattern.ofName? o'.accessPattern.name = some o'.accessPattern :=
      AccessPattern.ofName?_eq_some_iff.mpr (Text.Cased.refl _)
    unfold toChanges changed patternFrom
    dsimp only
    rw [hname]
  · cases option with
    | minRangeRequestSize => exact sizeFrom_natCast .minRangeRequestSize o'.minRangeRequestSize
    | inplaceSeekLimit => exact sizeFrom_natCast .inplaceSeekLimit o'.inplaceSeekLimit
    | sequentialThreshold => exact sizeFrom_natCast .sequentialThreshold o'.sequentialThreshold

/-- **Options survive being written and read**: those that a mapping stores are read back on the fields that it stores,
and their raw settings describe them, also as changes of others. -/
theorem options_survive :
    (∀ {o : ReadOptions} {chosen : OptionField → Bool} {mapping : String → Option String} {lead : String},
      o.Stored chosen mapping lead → ofMapping mapping lead = .ok (o.onlyOn chosen)) ∧
    (∀ o : ReadOptions, ofChanges o.toChanges = .ok o) ∧
    ∀ o o' : ReadOptions, o.replace o'.toChanges = .ok o' :=
  ⟨ofMapping_of_stored, fun o => replace_toChanges standard o, replace_toChanges⟩

/-- So it is for options of which a mapping stores three, among other keys. -/
theorem options_survive_lead :
    let o : ReadOptions := { accessPattern := .random, minRangeRequestSize := 4096, adaptive := .flag false }
    let chosen : OptionField → Bool
      | .size option => option = .minRangeRequestSize
      | _ => true
    let mapping : String → Option String := fun key =>
      [("read.adaptive-range.inplace-seek-limit-bytes", "none"),
        ("gs.read.adaptive-range.file-access-pattern", " RanDom\t"),
        ("gs.read.adaptive-range.min-range-request-size-bytes", "4096 "),
        ("gs.read.adaptive-range.enabled", "OFF")].lookup key
    o.Stored chosen mapping "gs." ∧ ofMapping mapping "gs." = .ok (o.onlyOn chosen) := by
  intro o chosen mapping
  have hstored : o.Stored chosen mapping "gs." := by
    rintro (_ | option | _)
    · exact ⟨" RanDom\t", by decide, "RanDom", by decide, [' '], ['\t'], List.forall_mem_singleton.mpr (by decide),
        List.forall_mem_singleton.mpr (by decide), by decide⟩
    · cases option with
      | minRangeRequestSize =>
        exact ⟨"4096 ", by decide, by decide +kernel, [], [' '], List.forall_mem_nil _,
          List.forall_mem_singleton.mpr (by decide), by decide +kernel⟩
      | inplaceSeekLimit => exact (by decide : mapping ("gs." ++ SizeOption.inplaceSeekLimit.key) = none)
      | sequentialThreshold => exact (by decide : mapping ("gs." ++ SizeOption.sequentialThreshold.key) = none)
    · exact ⟨"OFF", by decide, false, "off", "OFF", rfl, by decide, by decide, [], [], List.forall_mem_nil _,
        List.forall_mem_nil _, by decide⟩
  exact ⟨hstored, options_survive.1 hstored⟩

end ReadOptions

end RangeRead
