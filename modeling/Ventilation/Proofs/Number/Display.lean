import Ventilation.Proofs.Number.Reading
import Ventilation.Proofs.Number.Shortest
import Ventilation.Proofs.Number.Whole

/-!
# Numbers that are displayed

The plain text of a finite number that has no sign is a numeral, `isPlainNumeral_textChars`, and it
is read as the number that it shows, `read_textChars`.
-/

set_option autoImplicit false
set_option relaxedAutoImplicit false

namespace Ventilation.Binary64

/-- Digits, and after a point further digits. -/
inductive IsPlainNumeral : List Char → Prop
  | whole {digits : List Char} (hne : digits ≠ []) (hdigits : ∀ c ∈ digits, c.isDigit = true) :
    IsPlainNumeral digits
  | pointed {whole fraction : List Char} (hwhole : whole ≠ []) (hfraction : fraction ≠ [])
    (hdigits : ∀ c ∈ whole ++ fraction, c.isDigit = true) :
    IsPlainNumeral (whole ++ '.' :: fraction)

theorem isPlainNumeral_toDigits (n : ℕ) : IsPlainNumeral (Nat.toDigits 10 n) :=
  .whole Nat.toDigits_ne_nil fun _ ↦ Nat.isDigit_of_mem_toDigits (by decide) (by decide)

theorem exists_cons_of_isPlainNumeral {cs : List Char} (h : IsPlainNumeral cs) :
    ∃ c rest, cs = c :: rest ∧ c.isDigit = true := by
  cases h with
  | whole hne hdigits =>
    obtain ⟨c, rest, rfl⟩ := List.exists_cons_of_ne_nil hne
    exact ⟨c, rest, rfl, hdigits c List.mem_cons_self⟩
  | pointed hwhole _ hdigits =>
    obtain ⟨c, rest, rfl⟩ := List.exists_cons_of_ne_nil hwhole
    exact ⟨c, _, rfl, hdigits c List.mem_cons_self⟩

theorem isDigit_or_point_of_mem {cs : List Char} (h : IsPlainNumeral cs) :
    ∀ c ∈ cs, c.isDigit = true ∨ c = '.' := by
  intro c hc
  cases h with
  | whole _ hdigits => exact .inl (hdigits c hc)
  | pointed _ _ hdigits =>
    rcases List.mem_append.1 hc with hc | hc
    · exact .inl (hdigits c (List.mem_append_left _ hc))
    · rcases List.mem_cons.1 hc with rfl | hc
      · exact .inr rfl
      · exact .inl (hdigits c (List.mem_append_right _ hc))

/-- The characters of a numeral lie between the point and the nine. -/
theorem range_of_mem_isPlainNumeral {cs : List Char} (h : IsPlainNumeral cs) :
    ∀ c ∈ cs, 46 ≤ c.toNat ∧ c.toNat ≤ 57 := by
  intro c hc
  rcases isDigit_or_point_of_mem h c hc with hdigit | rfl
  · have hrange : 48 ≤ c.toNat ∧ c.toNat ≤ 57 := Char.isDigit_iff_toNat.1 hdigit
    omega
  · decide

/-! ### Reading -/

theorem read_pointed {whole fraction : List Char} (hwhole : whole ≠ [])
    (hdigits : ∀ c ∈ whole ++ fraction, c.isDigit = true) :
    read (whole ++ '.' :: fraction) =
      some (ofDecimal false (Nat.ofDigitChars 10 (whole ++ fraction) 0) (-fraction.length)) := by
  have hfirst : ∀ c ∈ whole, c.isDigit = true := fun c hc ↦ hdigits c (List.mem_append_left _ hc)
  have hspan : spanDigits (whole ++ '.' :: fraction) = (whole, '.' :: fraction) := by
    refine spanDigits_append hfirst fun c hc ↦ ?_
    obtain rfl := Option.mem_some.1 hc
    decide
  have hspan' : spanDigits fraction = (fraction, []) :=
    spanDigits_of_isDigit fun c hc ↦ hdigits c (List.mem_append_right _ hc)
  have hread : read (whole ++ '.' :: fraction) =
      readMagnitude false (whole ++ '.' :: fraction) := by
    obtain ⟨c, rest, rfl⟩ := List.exists_cons_of_ne_nil hwhole
    exact read_of_numeral (.inl (hfirst c List.mem_cons_self))
  have hempty : whole.isEmpty = false := List.isEmpty_eq_false_iff.2 hwhole
  rw [hread]
  unfold readMagnitude
  rw [hspan]
  simp only [hspan', hempty, Bool.false_and, Bool.false_eq_true, if_false, Option.map_some,
    zero_sub]

/-! ### Writing -/

/-- Zeros in front of the digits leave room for the point. -/
theorem exists_pointed {digits : List Char} (hdigits : ∀ c ∈ digits, c.isDigit = true) (k : ℕ) :
    ∃ whole fraction, pointed digits k = whole ++ '.' :: fraction ∧ whole ≠ [] ∧
      fraction.length = k ∧ (∀ c ∈ whole ++ fraction, c.isDigit = true) ∧
      Nat.ofDigitChars 10 (whole ++ fraction) 0 = Nat.ofDigitChars 10 digits 0 := by
  let padded := List.replicate (k + 1 - digits.length) '0' ++ digits
  have hlength : padded.length = k + 1 - digits.length + digits.length := by
    rw [List.length_append, List.length_replicate]
  refine ⟨padded.take (padded.length - k), padded.drop (padded.length - k), rfl, ?_, ?_, ?_, ?_⟩
  · rw [← List.length_pos_iff_ne_nil, List.length_take]
    omega
  · rw [List.length_drop]
    omega
  · rw [List.take_append_drop]
    intro c hc
    rcases List.mem_append.1 hc with hc | hc
    · obtain rfl := List.eq_of_mem_replicate hc
      decide
    · exact hdigits c hc
  · rw [List.take_append_drop, Nat.ofDigitChars_append, Nat.ofDigitChars_replicate_zero,
      Nat.mul_zero]

theorem positionalText_plain {d : Scientific} (h : ¬ d.exponent < 0) :
    positionalText plain d = Nat.toDigits 10 d.digits ++ List.replicate d.exponent.toNat '0' := by
  unfold positionalText plain
  simp only
  rw [if_neg h, if_neg Bool.false_ne_true, List.append_nil]

theorem isDigit_of_mem_padded {n k : ℕ} :
    ∀ c ∈ Nat.toDigits 10 n ++ List.replicate k '0', c.isDigit = true := by
  intro c hc
  rcases List.mem_append.1 hc with hc | hc
  · exact Nat.isDigit_of_mem_toDigits (by decide) (by decide) hc
  · obtain rfl := List.eq_of_mem_replicate hc
    decide

theorem isPlainNumeral_positionalText (d : Scientific) :
    IsPlainNumeral (positionalText plain d) := by
  by_cases h : d.exponent < 0
  · have hdigits : ∀ c ∈ Nat.toDigits 10 d.digits, c.isDigit = true := fun _ ↦
      Nat.isDigit_of_mem_toDigits (by decide) (by decide)
    obtain ⟨whole, fraction, htext, hwhole, hlength, hall, -⟩ :=
      exists_pointed hdigits (-d.exponent).toNat
    unfold positionalText
    simp only
    rw [if_pos h, htext]
    refine .pointed hwhole ?_ hall
    rw [← List.length_pos_iff_ne_nil]
    omega
  · rw [positionalText_plain h]
    exact .whole (List.append_ne_nil_of_left_ne_nil Nat.toDigits_ne_nil _) isDigit_of_mem_padded

/-- A decimal is read by its digits and exponent, or, where it is whole, by its value. -/
theorem read_positionalText (d : Scientific) :
    read (positionalText plain d) =
      some (if d.exponent < 0 then ofDecimal false d.digits d.exponent
        else nearest false (d.digits * tenTo d.exponent.toNat) 1) := by
  by_cases h : d.exponent < 0
  · have hdigits : ∀ c ∈ Nat.toDigits 10 d.digits, c.isDigit = true := fun _ ↦
      Nat.isDigit_of_mem_toDigits (by decide) (by decide)
    obtain ⟨whole, fraction, htext, hwhole, hlength, hall, hvalue⟩ :=
      exists_pointed hdigits (-d.exponent).toNat
    have hexponent : -(fraction.length : ℤ) = d.exponent := by omega
    unfold positionalText
    simp only
    rw [if_pos h, if_pos h, htext, read_pointed hwhole hall, hvalue, hexponent,
      Nat.ofDigitChars_ten_toDigits]
  · have hne : Nat.toDigits 10 d.digits ++ List.replicate d.exponent.toNat '0' ≠ [] :=
      List.append_ne_nil_of_left_ne_nil Nat.toDigits_ne_nil _
    rw [if_neg h, positionalText_plain h, read_of_isDigit hne isDigit_of_mem_padded,
      Nat.ofDigitChars_append, Nat.ofDigitChars_replicate_zero, Nat.ofDigitChars_ten_toDigits,
      Nat.mul_comm]
    rfl

variable {x : Float} {mantissa : ℕ} {exponent : ℤ}

theorem textChars_plain (hx : parts x = .finite false mantissa exponent) :
    textChars plain x = positionalText plain
      (if mantissa = 0 then ⟨0, 0⟩ else shortest .upper mantissa exponent) := by
  unfold textChars
  rw [hx]
  change magnitudeText plain mantissa exponent = _
  unfold magnitudeText
  by_cases hm : mantissa = 0
  · rw [if_pos hm, if_pos hm]
  · rw [if_neg hm, if_neg hm]
    exact if_pos rfl

theorem isPlainNumeral_textChars (h : IsUnsigned x) : IsPlainNumeral (textChars plain x) := by
  obtain ⟨mantissa, exponent, hx⟩ := h.exists_parts
  rw [textChars_plain hx]
  exact isPlainNumeral_positionalText _

/-- What is displayed of a number is read as that number. -/
theorem read_textChars (h : IsUnsigned x) : read (textChars plain x) = some x := by
  obtain ⟨mantissa, exponent, hx⟩ := h.exists_parts
  have hcanonical : (Parts.finite false mantissa exponent).IsCanonical := hx ▸ isCanonical_parts x
  rw [textChars_plain hx, read_positionalText, ← ofParts_parts hx]
  congr 1
  by_cases hm : mantissa = 0
  · have hexponent : exponent = leastExponent := by
      obtain ⟨-, -, -, hnormal⟩ := hcanonical
      exact hnormal.resolve_left (by rw [hm]; decide)
    rw [if_pos hm, hm, hexponent]
    rfl
  · obtain ⟨hnearest, hdecimal⟩ :=
      ofDecimal_of_holds (Nat.pos_of_ne_zero hm) hcanonical
        (holds_shortest .upper (Nat.pos_of_ne_zero hm))
    rw [if_neg hm]
    by_cases h : (shortest .upper mantissa exponent).exponent < 0
    · rw [if_pos h, hdecimal]
    · have hone : tenTo (-(shortest .upper mantissa exponent).exponent).toNat = 1 := by
        rw [Int.toNat_of_nonpos (by omega)]
      rw [if_neg h, ← hnearest, hone]

end Ventilation.Binary64
