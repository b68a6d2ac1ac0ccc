import Mathlib.Algebra.Group.Nat.Defs
import Mathlib.Data.List.Forall2
import RangeRead.Text.Numeral

/-!
# How texts are spelled

A text may stand with blanks around it (`Padded`), which `trim` takes off again (`trim_padded`), and a word in letters
of any case (`Cased`), which is the word once it is lowered (`cased_iff`). A number that is written in decimal digits,
with blanks around them, is read as that number (`integer?_padded`).
-/

namespace RangeRead.Text

/-! ## Blanks -/

/-- Whether `s` is `text` with blanks in front of it and behind it. -/
def Padded (text s : String) : Prop :=
  ∃ front back : List Char, (∀ c ∈ front, isBlank c) ∧ (∀ c ∈ back, isBlank c) ∧ s.toList = front ++ text.toList ++ back

theorem trimStart_append {front : List Char} (rest : List Char) (h : ∀ c ∈ front, isBlank c) :
    trimStart (front ++ rest) = trimStart rest := by
  induction front with
  | nil => rfl
  | cons c front ih =>
    have hblank : isBlank c = true := h c List.mem_cons_self
    unfold trimStart at ih ⊢
    rw [List.cons_append, List.dropWhile_cons_of_pos hblank]
    exact ih fun c' hc' => h c' (List.mem_cons_of_mem c hc')

/-- Nothing is taken off in front of a text that does not begin with a blank. -/
theorem trimStart_text {text : List Char} (rest : List Char) (hsome : text ≠ []) (h : ∀ c ∈ text, isBlank c = false) :
    trimStart (text ++ rest) = text ++ rest := by
  cases text with
  | nil => exact absurd rfl hsome
  | cons c text =>
    have hmark : ¬ isBlank c = true := by simp [h c List.mem_cons_self]
    unfold trimStart
    rw [List.cons_append, List.dropWhile_cons_of_neg hmark]

/-- The blanks around a text that has none are what is taken off. -/
theorem trimChars_padded {front text back : List Char} (hfront : ∀ c ∈ front, isBlank c) (hback : ∀ c ∈ back, isBlank c)
    (hsome : text ≠ []) (htext : ∀ c ∈ text, isBlank c = false) : trimChars (front ++ text ++ back) = text := by
  have hreverse : ∀ c ∈ text.reverse, isBlank c = false := fun c hc => htext c (List.mem_reverse.mp hc)
  unfold trimChars
  rw [List.append_assoc, trimStart_append _ hfront, trimStart_text _ hsome htext, List.reverse_append,
    trimStart_append _ fun c hc => hback c (List.mem_reverse.mp hc), ← List.append_nil text.reverse,
    trimStart_text _ (by simpa using hsome) hreverse, List.append_nil, List.reverse_reverse]

theorem trim_padded {text s : String} (h : Padded text s) (hsome : text.toList ≠ [])
    (htext : ∀ c ∈ text.toList, isBlank c = false) : trim s = text := by
  obtain ⟨front, back, hfront, hback, hs⟩ := h
  unfold trim
  rw [hs, trimChars_padded hfront hback hsome htext, String.ofList_toList]

/-! ## Letters of any case -/

/-- Whether `s` is `word` with some of its letters in upper case. -/
def Cased (word s : String) : Prop := List.Forall₂ (fun w c => c = w ∨ c = w.toUpper) word.toList s.toList

instance (word s : String) : Decidable (Cased word s) :=
  inferInstanceAs (Decidable (List.Forall₂ _ _ _))

theorem Cased.refl (word : String) : Cased word word := List.forall₂_same.mpr fun _ _ => .inl rfl

/-- Whether a word is in lower case and has no blanks. -/
def IsWord (word : String) : Prop :=
  word.toList ≠ [] ∧ ∀ c ∈ word.toList, c.toLower = c ∧ c.toUpper.toLower = c ∧ isBlank c = false ∧
    isBlank c.toUpper = false

-- Over the letters of the word, and not over all characters.
instance (word : String) : Decidable (IsWord word) :=
  @instDecidableAnd _ _ _ (List.decidableBAll _ word.toList)

/-- A character is in lower case, or it is the upper case of its lower case. -/
theorem toLower_cases (c : Char) : c.toLower = c ∨ c.toLower.toUpper = c := by
  have hletters : ∀ n < 91, 65 ≤ n → (Char.ofNat n).toLower.toUpper = Char.ofNat n := by decide
  by_cases hupper : 65 ≤ c.toNat ∧ c.toNat ≤ 90
  · have hletter := hletters c.toNat (by omega) hupper.1
    rw [Char.ofNat_toNat] at hletter
    exact .inr hletter
  · refine .inl (dif_neg fun h => hupper ⟨?_, ?_⟩)
    · exact UInt32.le_iff_toNat_le.mp h.1
    · exact UInt32.le_iff_toNat_le.mp h.2

theorem forall₂_cased_iff {ws cs : List Char} (h : ∀ w ∈ ws, w.toLower = w ∧ w.toUpper.toLower = w) :
    List.Forall₂ (fun w c => c = w ∨ c = w.toUpper) ws cs ↔ cs.map Char.toLower = ws := by
  induction ws generalizing cs with
  | nil => simp
  | cons w ws ih =>
    obtain ⟨hlower, hupper⟩ := h w List.mem_cons_self
    cases cs with
    | nil => simp
    | cons c cs =>
      have hletter : (c = w ∨ c = w.toUpper) ↔ c.toLower = w := by
        constructor
        · rintro (rfl | rfl)
          · exact hlower
          · exact hupper
        · rintro rfl
          exact (toLower_cases c).imp Eq.symm Eq.symm
      have hrest := @ih cs fun w' hw' => h w' (List.mem_cons_of_mem w hw')
      rw [List.forall₂_cons, hrest, hletter, List.map_cons, List.cons.injEq]

/-- A text is a word in letters of any case if it is that word once it is lowered. -/
theorem cased_iff {word s : String} (hword : IsWord word) : Cased word s ↔ s.toLower = word := by
  have hlower : s.toLower.toList = s.toList.map Char.toLower := String.toList_map
  rw [← String.toList_inj, hlower]
  exact forall₂_cased_iff fun w hw => ⟨(hword.2 w hw).1, (hword.2 w hw).2.1⟩

/-- In letters of any case a word has no blanks. -/
theorem Cased.unblank {word s : String} (h : Cased word s) (hword : IsWord word) :
    s.toList ≠ [] ∧ ∀ c ∈ s.toList, isBlank c = false := by
  have hlower : s.toList.map Char.toLower = word.toList := by
    rw [← (cased_iff hword).mp h]
    exact String.toList_map.symm
  obtain ⟨hsome, hletters⟩ := hword
  rw [← hlower] at hsome hletters
  refine ⟨fun hnone => hsome (by rw [hnone]; rfl), fun c hc => ?_⟩
  obtain ⟨-, -, hblank, hupper⟩ := hletters c.toLower (List.mem_map_of_mem hc)
  rcases toLower_cases c with hcase | hcase
  · rwa [hcase] at hblank
  · rwa [hcase] at hupper

/-- The blanks around a word in letters of any case are what is taken off. -/
theorem trim_cased {word cased s : String} (hword : IsWord word) (hcased : Cased word cased) (h : Padded cased s) :
    trim s = cased := by
  obtain ⟨hsome, hblank⟩ := hcased.unblank hword
  exact trim_padded h hsome hblank

/-! ## Numerals -/

theorem toNat_of_isDigit {c : Char} (h : c.isDigit = true) : 48 ≤ c.toNat ∧ c.toNat < 58 := by
  unfold Char.isDigit at h
  simp only [ge_iff_le, Bool.and_eq_true, decide_eq_true_eq, UInt32.le_iff_toNat_le] at h
  exact ⟨h.1, Nat.lt_succ_of_le h.2⟩

theorem isBlank_of_isDigit {c : Char} (h : c.isDigit = true) : isBlank c = false := by
  have hnone : ∀ n < 58, 48 ≤ n → inRanges blankRanges n = false := by decide
  obtain ⟨hlow, hhigh⟩ := toNat_of_isDigit h
  exact hnone c.toNat hhigh hlow

theorem digitValue?_of_isDigit {c : Char} (h : c.isDigit = true) : digitValue? c = some (c.toNat - 48) := by
  have hzeros : zeroDigits = 0x30 :: zeroDigits.tail := rfl
  have hascii : (decide (0x30 ≤ c.toNat) && decide (c.toNat < 0x30 + 10)) = true := by
    simpa using toNat_of_isDigit h
  unfold digitValue?
  rw [hzeros, List.find?_cons_of_pos (by exact hascii)]
  rfl

/-- Decimal digits are read one by one. -/
theorem digitValues?_digits {cs : List Char} (hsome : cs ≠ []) (h : ∀ c ∈ cs, c.isDigit = true) :
    digitValues? cs = some (cs.map fun c => c.toNat - 48) := by
  induction cs with
  | nil => exact absurd rfl hsome
  | cons c cs ih =>
    have hc := digitValue?_of_isDigit (h c List.mem_cons_self)
    cases cs with
    | nil =>
      unfold digitValues?
      rw [hc]
      rfl
    | cons c' cs =>
      have hdigits : ∀ d ∈ c' :: cs, d.isDigit = true := fun d hd => h d (List.mem_cons_of_mem c hd)
      have hmark : c' ≠ '_' := by
        rintro rfl
        exact absurd (hdigits '_' List.mem_cons_self) (by decide)
      unfold digitValues?
      split
      · rename_i heq
        cases heq
      · rename_i heq
        cases heq
      · rename_i heq
        cases heq
        exact absurd rfl hmark
      · rename_i heq
        cases heq
        rw [hc, ih nofun hdigits]
        rfl

theorem ofDigits_digits (cs : List Char) : ofDigits (cs.map fun c => c.toNat - 48) = Nat.ofDigitChars 10 cs 0 := by
  unfold ofDigits
  rw [List.foldl_map, Nat.ofDigitChars_eq_foldl]
  rfl

/-- A number can be written if it has few enough digits. -/
theorem isWritable_iff {n : Nat} : isWritable n = true ↔ n < 10 ^ maxDigits := by
  unfold isWritable
  rw [decide_eq_true_eq, Int.natAbs_natCast, Nat.pow_eq]

/-- The digits of a number that can be written are read as that number. -/
theorem natural?_toDigits {n : Nat} (h : isWritable n = true) : natural? (Nat.toDigits 10 n) = some n := by
  have hlength : (Nat.toDigits 10 n).length ≤ maxDigits := by
    rw [Nat.length_toDigits_le_iff (by decide) (by decide)]
    exact isWritable_iff.mp h
  have hdigits : ∀ c ∈ Nat.toDigits 10 n, c.isDigit = true :=
    fun c hc => Nat.isDigit_of_mem_toDigits (by decide) (by decide) hc
  unfold natural?
  rw [digitValues?_digits Nat.toDigits_ne_nil hdigits]
  dsimp only
  rw [List.length_map, if_pos hlength, ofDigits_digits, Nat.ofDigitChars_ten_toDigits]

/-- A number that can be written is read from its digits, with blanks around them. -/
theorem integer?_padded {n : Nat} {s : String} (h : Padded (toString n) s) (hwritable : isWritable n = true) :
    integer? s = some (n : Int) := by
  obtain ⟨front, back, hfront, hback, hs⟩ := h
  have hdigits : ∀ c ∈ Nat.toDigits 10 n, c.isDigit = true :=
    fun c hc => Nat.isDigit_of_mem_toDigits (by decide) (by decide) hc
  have htrim : trimChars s.toList = Nat.toDigits 10 n := by
    rw [hs, Nat.toString_eq_repr, Nat.toList_repr]
    exact trimChars_padded hfront hback Nat.toDigits_ne_nil fun c hc => isBlank_of_isDigit (hdigits c hc)
  have hread := natural?_toDigits hwritable
  unfold integer?
  rw [htrim]
  -- the first character is a digit, and no sign
  split
  · rename_i heq
    exact absurd (hdigits '+' (by rw [heq]; exact List.mem_cons_self)) (by decide)
  · rename_i heq
    exact absurd (hdigits '-' (by rw [heq]; exact List.mem_cons_self)) (by decide)
  · rw [hread]
    rfl

end RangeRead.Text
