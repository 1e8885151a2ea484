import Mathlib.Data.List.TakeWhile
import Mathlib.Tactic.Basic
import Ventilation.Number.Text
import Ventilation.Proofs.Text.Character

/-!
Texts of digits are read as the number nearest to their value, and no text is read that has other
than ASCII characters, `lt_of_mem_read`.
-/

set_option autoImplicit false
set_option relaxedAutoImplicit false

namespace Ventilation.Binary64

open Text

/-- A text that begins with a digit or a point has no sign and is no word. -/
theorem read_of_numeral {c : Char} {cs : List Char} (hc : c.isDigit = true ∨ c = '.') :
    read (c :: cs) = readMagnitude false (c :: cs) := by
  have hrange : 46 ≤ c.toNat ∧ c.toNat ≤ 57 := by
    rcases hc with hc | rfl
    · have hdigit : 48 ≤ c.toNat ∧ c.toNat ≤ 57 := Char.isDigit_iff_toNat.1 hc
      omega
    · decide
  have hlower : c.toLower = c := toLower_eq_self (by omega)
  have hminus : c ≠ '-' := by
    rintro rfl
    exact absurd hrange.1 (by decide)
  have hplus : c ≠ '+' := by
    rintro rfl
    exact absurd hrange.1 (by decide)
  have hi : c ≠ 'i' := by
    rintro rfl
    exact absurd hrange.2 (by decide)
  have hn : c ≠ 'n' := by
    rintro rfl
    exact absurd hrange.2 (by decide)
  unfold read
  split
  rename_i negative rest hsplit
  split at hsplit
  · exact absurd (List.cons.inj ‹_›).1 hminus
  · exact absurd (List.cons.inj ‹_›).1 hplus
  · obtain ⟨rfl, rfl⟩ := Prod.mk.inj hsplit
    simp only [lowerAscii, List.map_cons, hlower, List.cons.injEq, hi, hn, false_and, or_self,
      if_false]

theorem spanDigits_append {whole rest : List Char} (hwhole : ∀ c ∈ whole, c.isDigit = true)
    (hrest : ∀ c ∈ rest.head?, ¬ c.isDigit = true) :
    spanDigits (whole ++ rest) = (whole, rest) := by
  unfold spanDigits
  rw [List.takeWhile_append_of_pos hwhole, List.dropWhile_append_of_pos hwhole]
  cases rest with
  | nil => simp
  | cons c rest =>
    have hc := hrest c rfl
    rw [List.takeWhile_cons_of_neg hc, List.dropWhile_cons_of_neg hc, List.append_nil]

theorem spanDigits_of_isDigit {cs : List Char} (h : ∀ c ∈ cs, c.isDigit = true) :
    spanDigits cs = (cs, []) := by
  have hspan : spanDigits (cs ++ []) = (cs, []) := spanDigits_append h fun c hc ↦ by cases hc
  rwa [List.append_nil] at hspan

theorem readMagnitude_of_isDigit {negative : Bool} {cs : List Char} (hne : cs ≠ [])
    (h : ∀ c ∈ cs, c.isDigit = true) :
    readMagnitude negative cs = some (ofDecimal negative (Nat.ofDigitChars 10 cs 0) 0) := by
  unfold readMagnitude
  rw [spanDigits_of_isDigit h]
  simp [hne]

theorem ofDecimal_zero (negative : Bool) (n : Nat) :
    ofDecimal negative n 0 = nearest negative n 1 := by
  unfold ofDecimal
  by_cases hn : n = 0
  · rw [if_pos (.inl hn), hn]
    rfl
  · rw [if_neg (by omega), if_neg (by omega)]
    change nearest negative (n * 1) 1 = _
    rw [Nat.mul_one]

theorem read_of_isDigit {digits : List Char} (hne : digits ≠ [])
    (hdigits : ∀ c ∈ digits, c.isDigit = true) :
    read digits = some (nearest false (Nat.ofDigitChars 10 digits 0) 1) := by
  have hread : read digits = readMagnitude false digits := by
    obtain ⟨c, rest, rfl⟩ := List.exists_cons_of_ne_nil hne
    exact read_of_numeral (.inl (hdigits c List.mem_cons_self))
  rw [hread, readMagnitude_of_isDigit hne hdigits, ofDecimal_zero]

theorem read_toDigits (n : Nat) : read (Nat.toDigits 10 n) = some (nearest false n 1) := by
  rw [read_of_isDigit Nat.toDigits_ne_nil fun _ ↦
    Nat.isDigit_of_mem_toDigits (by decide) (by decide), Nat.ofDigitChars_ten_toDigits]

/-! ### Letter case -/

/-- The lower case of an ASCII text does not depend on what stands around it. -/
theorem lowerAfter_of_lt {before cs : List Char} (h : ∀ c ∈ cs, c.toNat < 0x80) :
    lowerAfter before cs = lowerAscii cs := by
  induction cs generalizing before with
  | nil => rfl
  | cons c cs ih =>
    have hc := h c List.mem_cons_self
    have hlower : lowerLetter c = c.toLower := by
      unfold lowerLetter
      rw [if_pos hc]
    unfold lowerAfter
    simp only
    rw [if_neg (by omega), if_neg (by omega), hlower,
      ih fun d hd ↦ h d (List.mem_cons_of_mem c hd)]
    rfl

theorem lowerAscii_eq_self {cs : List Char} (h : ∀ c ∈ cs, ¬ (65 ≤ c.toNat ∧ c.toNat ≤ 90)) :
    lowerAscii cs = cs :=
  (List.map_congr_left fun c hc ↦ toLower_eq_self (h c hc)).trans (List.map_id' cs)

/-! ### Other texts -/

theorem lt_of_isDigit {c : Char} (h : c.isDigit = true) : c.toNat < 0x80 := by
  have hrange : 48 ≤ c.toNat ∧ c.toNat ≤ 57 := Char.isDigit_iff_toNat.1 h
  omega

theorem lt_of_mem_readExponent {cs : List Char} {e : Int} (h : readExponent cs = some e) :
    ∀ c ∈ cs, c.toNat < 0x80 := by
  have hdigits {digits : List Char} (h : ¬ (digits.isEmpty || !digits.all Char.isDigit) = true) :
      ∀ c ∈ digits, c.toNat < 0x80 := by
    intro c hc
    simp only [Bool.or_eq_true, Bool.not_eq_true', not_or, Bool.not_eq_false] at h
    exact lt_of_isDigit (List.all_eq_true.1 h.2 c hc)
  have hsigned {sign : Char} {digits : List Char} (hsign : sign.toNat < 0x80)
      (h : ∀ c ∈ digits, c.toNat < 0x80) : ∀ c ∈ sign :: digits, c.toNat < 0x80 :=
    List.forall_mem_cons.2 ⟨hsign, h⟩
  unfold readExponent at h
  split at h
  rename_i negative digits hsplit
  simp only [Option.ite_none_left_eq_some] at h
  split at hsplit
  · obtain ⟨-, rfl⟩ := Prod.mk.inj hsplit
    exact hsigned (by decide) (hdigits h.1)
  · obtain ⟨-, rfl⟩ := Prod.mk.inj hsplit
    exact hsigned (by decide) (hdigits h.1)
  · obtain ⟨-, rfl⟩ := Prod.mk.inj hsplit
    exact hdigits h.1

theorem lt_of_mem_readMagnitude {negative : Bool} {cs : List Char} {x : Float}
    (h : readMagnitude negative cs = some x) : ∀ c ∈ cs, c.toNat < 0x80 := by
  have hspan (cs : List Char) (hrest : ∀ c ∈ (spanDigits cs).2, c.toNat < 0x80) :
      ∀ c ∈ cs, c.toNat < 0x80 := by
    intro c hc
    rw [← List.takeWhile_append_dropWhile (p := Char.isDigit) (l := cs)] at hc
    rcases List.mem_append.1 hc with hc | hc
    · exact lt_of_isDigit (List.mem_takeWhile_imp hc)
    · exact hrest c hc
  have hexponent {mark : Char} {digits : List Char} {e : Int}
      (h : (if mark = 'e' ∨ mark = 'E' then readExponent digits else none) = some e) :
      ∀ c ∈ mark :: digits, c.toNat < 0x80 := by
    simp only [Option.ite_none_right_eq_some] at h
    obtain ⟨rfl | rfl, h⟩ := h
    · exact List.forall_mem_cons.2 ⟨by decide, lt_of_mem_readExponent h⟩
    · exact List.forall_mem_cons.2 ⟨by decide, lt_of_mem_readExponent h⟩
  unfold readMagnitude at h
  apply hspan
  generalize spanDigits cs = span at h
  obtain ⟨whole, rest⟩ := span
  simp only at h ⊢
  split at h
  · simp only [Option.ite_none_left_eq_some, Option.map_eq_some_iff] at h
    obtain ⟨-, e, he, -⟩ := h
    refine List.forall_mem_cons.2 ⟨by decide, hspan _ ?_⟩
    split at he
    · next hnil =>
      rw [hnil]
      exact List.forall_mem_nil _
    · next hcons =>
      rw [hcons]
      exact hexponent he
  · simp only [Option.ite_none_left_eq_some, Option.map_eq_some_iff] at h
    obtain ⟨-, e, he, -⟩ := h
    split at he
    · exact List.forall_mem_nil _
    · exact hexponent he

/-- Only ASCII texts are read. -/
theorem lt_of_mem_read {cs : List Char} {x : Float} (h : read cs = some x) :
    ∀ c ∈ cs, c.toNat < 0x80 := by
  have hword {word rest : List Char} (h : lowerAscii rest = word)
      (hascii : word.all (fun c ↦ c.toNat < 0x80) = true) : ∀ c ∈ rest, c.toNat < 0x80 := by
    intro c hc
    have hlower := of_decide_eq_true
      (List.all_eq_true.1 hascii c.toLower (h ▸ List.mem_map_of_mem hc))
    exact lt_of_toLower_lt hlower
  unfold read at h
  split at h
  rename_i negative rest hsplit
  have hrest : ∀ c ∈ rest, c.toNat < 0x80 := by
    simp only at h
    split at h
    · next hinfinite =>
      rcases hinfinite with hinfinite | hinfinite
      · exact hword hinfinite rfl
      · exact hword hinfinite rfl
    · split at h
      · next hnan => exact hword hnan rfl
      · exact lt_of_mem_readMagnitude h
  split at hsplit
  · obtain ⟨-, rfl⟩ := Prod.mk.inj hsplit
    exact List.forall_mem_cons.2 ⟨by decide, hrest⟩
  · obtain ⟨-, rfl⟩ := Prod.mk.inj hsplit
    exact List.forall_mem_cons.2 ⟨by decide, hrest⟩
  · obtain ⟨-, rfl⟩ := Prod.mk.inj hsplit
    exact hrest

end Ventilation.Binary64
