import Ventilation.Measure.Length
import Ventilation.Proofs.Measure.SizeText
import Ventilation.Proofs.Text.Search
import Ventilation.Proofs.Text.Trim

/-!
# Lengths that are written

A finite length without a sign is read back from its text, `Length.ofText?_text`, whatever unit a
bare number would have. Blanks around it and the letter case of its unit do not count,
`Length.ofText?_of_isWritten`: a numeral has no letters, so that each part which the reader looks
for stands in the text just if it stands in the sign of the unit.
-/

set_option autoImplicit false
set_option relaxedAutoImplicit false

namespace Ventilation

open Text Binary64

/-- A text of a length: the number as displayed and right after it the sign of the unit in any
letter case, between blanks. -/
inductive Length.IsWritten (l : Length) : String → Prop
  | text {front suffix back : List Char} (hfront : IsBlanks front) (hback : IsBlanks back)
    (hsuffix : lowerAscii suffix = l.unit.suffix.toList) :
    IsWritten l (String.ofList (front ++ ((display l.value).toList ++ suffix ++ back)))

namespace LengthUnit

variable {unit : LengthUnit} {numeral suffix : List Char}

theorem visible_of_mem_suffix (unit : LengthUnit) : ∀ c ∈ unit.suffix.toList, Visible c := by
  cases unit <;> simp [LengthUnit.suffix, Visible]

/-- The characters of a sign are visible in any letter case. -/
theorem visible_of_lowerAscii (h : lowerAscii suffix = unit.suffix.toList) :
    ∀ c ∈ suffix, Visible c := by
  intro c hc
  exact visible_of_toLower (visible_of_mem_suffix unit _ (h ▸ List.mem_map_of_mem hc))

theorem lt_of_visible {c : Char} (h : Visible c) : c.toNat < 0x80 :=
  Nat.lt_succ_of_le (Nat.le_succ_of_le h.2)

theorem lowercase_append (hnumeral : IsPlainNumeral numeral)
    (hsuffix : lowerAscii suffix = unit.suffix.toList) :
    lowercase (numeral ++ suffix) = numeral ++ unit.suffix.toList := by
  have hrange := range_of_mem_isPlainNumeral hnumeral
  have hascii : ∀ c ∈ numeral ++ suffix, c.toNat < 0x80 := by
    refine List.forall_mem_append.2 ⟨fun c hc ↦ ?_, fun c hc ↦ ?_⟩
    · have hc := hrange c hc
      omega
    · exact lt_of_visible (visible_of_lowerAscii hsuffix c hc)
  have hself : lowerAscii numeral = numeral := lowerAscii_eq_self fun c hc ↦ by
    have hc := hrange c hc
    omega
  calc lowercase (numeral ++ suffix)
      = lowerAscii (numeral ++ suffix) := lowerAfter_of_lt hascii
    _ = lowerAscii numeral ++ lowerAscii suffix := List.map_append
    _ = numeral ++ unit.suffix.toList := by rw [hself, hsuffix]

/-- A mark that is no letter and stands in no numeral is looked for in the sign of the unit. -/
theorem contains_append {mark : Char} (hmark : mark.isAlpha = false)
    (hrange : ¬ (46 ≤ mark.toNat ∧ mark.toNat ≤ 57)) (hnumeral : IsPlainNumeral numeral)
    (hsuffix : lowerAscii suffix = unit.suffix.toList) :
    (numeral ++ suffix).contains mark = unit.suffix.toList.contains mark := by
  rw [Bool.eq_iff_iff, List.contains_iff_mem, List.contains_iff_mem, List.mem_append, ← hsuffix,
    lowerAscii, List.mem_map,
    or_iff_right fun h ↦ hrange (range_of_mem_isPlainNumeral hnumeral _ h)]
  simp only [toLower_eq_iff hmark, exists_eq_right]

/-- A part that begins with a letter stands in the sign of the unit or nowhere. -/
theorem occurs_append {part : String} (hpart : part.toList.head?.any Char.isAlpha = true)
    (hnumeral : IsPlainNumeral numeral) (cs : List Char) :
    occurs part.toList (numeral ++ cs) = occurs part.toList cs := by
  cases hcs : part.toList with
  | nil =>
    rw [hcs] at hpart
    cases hpart
  | cons c rest =>
    have halpha : c.isAlpha = true := by rwa [hcs] at hpart
    have hc : c ∉ numeral := by
      intro hmem
      have hrange := range_of_mem_isPlainNumeral hnumeral c hmem
      have hletter := isAlpha_iff.1 halpha
      omega
    rw [Bool.eq_iff_iff, occurs_iff, occurs_iff, infix_append_iff_of_notMem hc]

/-- The unit of a length is found by its sign. -/
theorem detect?_append (hnumeral : IsPlainNumeral numeral)
    (hsuffix : lowerAscii suffix = unit.suffix.toList) :
    detect? (numeral ++ suffix) = some unit := by
  have hdouble : (numeral ++ suffix).contains '"' = unit.suffix.toList.contains '"' :=
    contains_append rfl (by decide) hnumeral hsuffix
  have hsingle : (numeral ++ suffix).contains '\'' = unit.suffix.toList.contains '\'' :=
    contains_append rfl (by decide) hnumeral hsuffix
  unfold detect?
  simp only [hdouble, hsingle, lowercase_append hnumeral hsuffix]
  rw [occurs_append rfl hnumeral, occurs_append rfl hnumeral, occurs_append rfl hnumeral,
    occurs_append rfl hnumeral, occurs_append rfl hnumeral, occurs_append rfl hnumeral,
    occurs_append rfl hnumeral]
  cases unit <;> decide

end LengthUnit

namespace Length

variable {l : Length}

/-- Neither a digit nor a point begins the sign of a unit. -/
theorem exists_cons_of_suffix {unit : LengthUnit} {suffix : List Char}
    (h : lowerAscii suffix = unit.suffix.toList) :
    ∃ c rest, suffix = c :: rest ∧ isDecimalDigit c = false ∧ c ≠ '.' := by
  have hhead : ∀ c ∈ unit.suffix.toList.head?, ¬ (46 ≤ c.toNat ∧ c.toNat ≤ 57) := by
    cases unit <;> simp [LengthUnit.suffix]
  cases suffix with
  | nil => cases unit <;> cases h
  | cons c rest =>
    have hc : ¬ (46 ≤ c.toNat ∧ c.toNat ≤ 57) := by
      intro hrange
      refine hhead c.toLower (by rw [← h]; rfl) ?_
      rwa [toLower_eq_self (by omega)]
    have hvisible := LengthUnit.visible_of_lowerAscii h c List.mem_cons_self
    have hascii := LengthUnit.lt_of_visible hvisible
    refine ⟨c, rest, rfl, ?_, ?_⟩
    · unfold isDecimalDigit
      rw [Bool.or_eq_false_iff, Bool.and_eq_false_iff]
      refine ⟨Bool.eq_false_iff.2 fun hdigit ↦ hc ?_, .inl (decide_eq_false (by omega))⟩
      have hrange : 48 ≤ c.toNat ∧ c.toNat ≤ 57 := Char.isDigit_iff_toNat.1 hdigit
      omega
    · rintro rfl
      exact hc (by decide)

/-- A length is read from each of its texts, in its own unit. -/
theorem ofText?_of_isWritten {text : String} (h : l.IsWritten text) (hvalue : IsUnsigned l.value)
    (defaultUnit : LengthUnit) : ofText? text defaultUnit = .ok l := by
  obtain ⟨value, unit⟩ := l
  cases h with
  | @text front suffix back hfront hback hsuffix =>
    have hplain := isPlainNumeral_textChars hvalue
    have hread := read_textChars hvalue
    have hdisplay : (display value).toList = textChars plain value := String.toList_ofList
    rw [hdisplay]
    generalize textChars plain value = numeral at hplain hread ⊢
    obtain ⟨c, rest, hcons, hc, hne⟩ := exists_cons_of_suffix hsuffix
    have htrimmed : IsTrimmed (numeral ++ suffix) := by
      refine .of_visible (List.forall_mem_append.2
        ⟨fun d hd ↦ ?_, LengthUnit.visible_of_lowerAscii hsuffix⟩)
      have hrange := range_of_mem_isPlainNumeral hplain d hd
      exact ⟨by omega, by omega⟩
    have hnumber : Numeral.firstValue (numeral ++ suffix) = some value := by
      rw [hcons, Size.firstValue_of_isPlainNumeral hplain hc hne, hread]
    unfold ofText?
    rw [String.toList_ofList, trim_append hfront hback, htrimmed.trim_eq]
    simp only [hnumber, LengthUnit.detect?_append hplain hsuffix, Option.getD_some]

theorem isWritten_text (l : Length) : l.IsWritten l.text := by
  have hlower : lowerAscii l.unit.suffix.toList = l.unit.suffix.toList := by
    cases l.unit <;> decide
  have hwritten := IsWritten.text (List.forall_mem_nil _) (List.forall_mem_nil _) hlower
  have htext : l.text =
      String.ofList ([] ++ ((display l.value).toList ++ l.unit.suffix.toList ++ [])) := by
    rw [List.nil_append, List.append_nil, ← String.toList_append, String.ofList_toList]
    rfl
  rwa [← htext] at hwritten

/-- A length is read back from its text. -/
theorem ofText?_text (hvalue : IsUnsigned l.value) (defaultUnit : LengthUnit) :
    ofText? l.text defaultUnit = .ok l :=
  ofText?_of_isWritten l.isWritten_text hvalue defaultUnit

end Length

end Ventilation
