import Mathlib
import Ventilation.Text.Character

/-!
# Characters of ASCII

Digits, letters and the other visible characters as ranges of code points, so that what tells them
apart is arithmetic. Folding the case of a character changes letters only, and is the lower case of
ASCII.
-/

set_option autoImplicit false
set_option relaxedAutoImplicit false

namespace Ventilation.Text

variable {c d : Char}

theorem isAlpha_iff :
    c.isAlpha = true ↔ 65 ≤ c.toNat ∧ c.toNat ≤ 90 ∨ 97 ≤ c.toNat ∧ c.toNat ≤ 122 := by
  rw [Char.isAlpha, Char.isUpper, Char.isLower]
  simp only [Bool.or_eq_true, Bool.and_eq_true, decide_eq_true_eq]
  exact Iff.rfl

theorem toLower_eq_self (hc : ¬ (65 ≤ c.toNat ∧ c.toNat ≤ 90)) : c.toLower = c := by
  unfold Char.toLower
  exact dif_neg hc

theorem lt_of_toLower_lt (h : c.toLower.toNat < 0x80) : c.toNat < 0x80 := by
  by_contra hwide
  rw [toLower_eq_self (by omega)] at h
  exact hwide h

/-- Nothing but a letter has a lower case of its own. -/
theorem eq_of_toLower_eq (hd : d.isAlpha = false) (h : c.toLower = d) : c = d := by
  have halpha : c.isAlpha = false := by
    rw [← Char.isLower_toLower_eq_isAlpha, h]
    rw [Char.isAlpha, Bool.or_eq_false_iff] at hd
    exact hd.2
  have hrange : ¬ (65 ≤ c.toNat ∧ c.toNat ≤ 90) := fun hupper ↦
    Bool.false_ne_true (halpha.symm.trans (isAlpha_iff.2 (.inl hupper)))
  rwa [toLower_eq_self hrange] at h

theorem toLower_eq_iff (hd : d.isAlpha = false) : c.toLower = d ↔ c = d := by
  refine ⟨eq_of_toLower_eq hd, ?_⟩
  rintro rfl
  refine toLower_eq_self fun hupper ↦ ?_
  exact Bool.false_ne_true (hd.symm.trans (isAlpha_iff.2 (.inl hupper)))

theorem ne_of_isDigit (hc : c.isDigit = true) (hd : d.isDigit = false) : c ≠ d := by
  rintro rfl
  exact Bool.false_ne_true (hd.symm.trans hc)

/-- The printable characters of ASCII other than the space. -/
def Visible (c : Char) : Prop := 33 ≤ c.toNat ∧ c.toNat ≤ 126

instance (c : Char) : Decidable (Visible c) := inferInstanceAs (Decidable (_ ∧ _))

theorem isBlank_of_visible (h : Visible c) : isBlank c = false := by
  unfold Visible at h
  unfold isBlank inRanges
  simp only [List.any_cons, List.any_nil, Bool.or_false, Bool.or_eq_false_iff,
    Bool.and_eq_false_iff, decide_eq_false_iff_not]
  omega

theorem visible_of_toLower (h : Visible c.toLower) : Visible c := by
  by_cases hupper : 65 ≤ c.toNat ∧ c.toNat ≤ 90
  · exact ⟨by omega, by omega⟩
  · rwa [toLower_eq_self hupper] at h

theorem visible_of_isDigit (h : c.isDigit = true) : Visible c := by
  have hrange : 48 ≤ c.toNat ∧ c.toNat ≤ 57 := Char.isDigit_iff_toNat.1 h
  exact ⟨by omega, by omega⟩

theorem visible_of_isAlpha (h : c.isAlpha = true) : Visible c := by
  have hrange := isAlpha_iff.1 h
  exact ⟨by omega, by omega⟩

theorem isAlpha_eq_false_of_isDigit (hc : c.isDigit = true) : c.isAlpha = false := by
  have hrange : 48 ≤ c.toNat ∧ c.toNat ≤ 57 := Char.isDigit_iff_toNat.1 hc
  refine Bool.eq_false_iff.2 fun halpha ↦ ?_
  have halpha := isAlpha_iff.1 halpha
  omega

/-! ### Folded case -/

theorem isBlank_cases (h : isBlank c = true) : c.toNat ≤ 0x20 ∨ 0x85 ≤ c.toNat ∧ c.toNat ≤ 0xA0 ∨
    0x1680 ≤ c.toNat ∧ c.toNat ≤ 0x205F ∨ c.toNat = 0x3000 := by
  unfold isBlank inRanges at h
  simp only [List.any_cons, List.any_nil, Bool.or_false, Bool.or_eq_true, Bool.and_eq_true,
    decide_eq_true_eq] at h
  omega

theorem foldCase_of_ne (hs : c.toNat ≠ 0x17F) (hk : c.toNat ≠ 0x212A) :
    foldCase c = c.toLower := by
  unfold foldCase
  rw [if_neg hs, if_neg hk]

theorem foldCase_of_isBlank (h : isBlank c = true) : foldCase c = c := by
  have hranges := isBlank_cases h
  rw [foldCase_of_ne (by omega) (by omega), toLower_eq_self (by omega)]

/-- Before the letters nothing is folded. -/
theorem foldCase_of_lt (h : c.toNat < 65) : foldCase c = c := by
  rw [foldCase_of_ne (by omega) (by omega), toLower_eq_self (by omega)]

theorem foldCase_of_visible (h : Visible c) : foldCase c = c.toLower := by
  unfold Visible at h
  exact foldCase_of_ne (by omega) (by omega)

/-- Only letters are folded to letters, and nothing but a letter is changed. -/
theorem eq_of_foldCase_eq (hd : d.isAlpha = false) (h : foldCase c = d) : c = d := by
  unfold foldCase at h
  split at h
  · rw [← h] at hd
    cases hd
  · split at h
    · rw [← h] at hd
      cases hd
    · exact eq_of_toLower_eq hd h

theorem isAlpha_of_isLower_foldCase (hc : Visible c) (h : (foldCase c).isLower = true) :
    c.isAlpha = true := by
  rwa [foldCase_of_visible hc, Char.isLower_toLower_eq_isAlpha] at h

end Ventilation.Text
