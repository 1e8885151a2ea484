import Ventilation.Measure.Size
import Ventilation.Proofs.Number.Display
import Ventilation.Proofs.Number.Nonneg

/-!
# Size texts

A size that is written is read back as its whole inches, `ofText?_rectText_trunc` and
`diameterOfText?_diameterText_trunc`, so whole inches survive: `ofText?_rectText` and
`diameterOfText?_diameterText`. The sides read back are equal to those written; the sign of a zero
side is lost, so they need not be the same.
-/

set_option autoImplicit false
set_option relaxedAutoImplicit false

namespace Ventilation

open Text Binary64

/-- A whole number of inches, as the price tables hold them. -/
def IsWholeInches (x : Float) : Prop := ∃ n : ℕ, n < 2 ^ 63 ∧ value? x = some (n : ℚ)

/-- Whether parts are those of a whole number of inches. -/
def wholeInches (p : Parts) : Bool :=
  match p with
  | .finite negative mantissa exponent =>
    (!negative || mantissa = 0) && mantissa * twoTo exponent.toNat % twoTo (-exponent).toNat = 0 &&
      mantissa * twoTo exponent.toNat / twoTo (-exponent).toNat < 2 ^ 63
  | _ => false

theorem wholeInches_iff {x : Float} : wholeInches (parts x) = true ↔ IsWholeInches x := by
  constructor
  · intro h
    cases hx : parts x with
    | nan => simp [hx, wholeInches] at h
    | infinite negative => simp [hx, wholeInches] at h
    | finite negative mantissa exponent =>
      simp only [hx, wholeInches, Bool.and_eq_true, Bool.or_eq_true, Bool.not_eq_true',
        decide_eq_true_eq] at h
      obtain ⟨⟨hsign, hrest⟩, hlt⟩ := h
      refine ⟨_, hlt, ?_⟩
      have hwhole := natCast_eq_mul_zpow_iff.2
        (Nat.div_mul_cancel (Nat.dvd_of_mod_eq_zero hrest)).symm
      rw [value?_of_parts hx fun hnegative ↦ hsign.resolve_left (by simp [hnegative]), hwhole]
  · rintro ⟨n, hn, h⟩
    obtain ⟨negative, mantissa, exponent, hx, hvalue, hsign⟩ := exists_parts_of_value? h
    have hunit : 0 < twoTo (-exponent).toNat := Nat.two_pow_pos _
    have hsign' : negative = false ∨ mantissa = 0 := by
      cases negative
      · exact .inl rfl
      · exact .inr (hsign rfl)
    rw [hx, wholeInches, natCast_eq_mul_zpow_iff.1 hvalue, Nat.mul_mod_left,
      Nat.mul_div_cancel _ hunit]
    simpa [hsign'] using hn

instance (x : Float) : Decidable (IsWholeInches x) := decidable_of_iff _ wholeInches_iff

/-- A number of inches that is not negative and has a whole part of 63 bits. -/
structure IsInchSize (x : Float) : Prop where
  nonneg : 0 ≤ x
  lt : x < 9223372036854775808

theorem value?_inchLimit : value? 9223372036854775808 = some (2 ^ 63) := by
  have hparts : parts 9223372036854775808 = .finite false (2 ^ 52) 11 := by decide +kernel
  rw [value?_of_parts hparts (by simp)]
  norm_num

theorem IsInchSize.exists_value? {x : Float} (h : IsInchSize x) :
    ∃ q : ℚ, value? x = some q ∧ 0 ≤ q ∧ q < 2 ^ 63 := by
  obtain ⟨hx, hlimit, hlt⟩ := lt_iff.1 h.lt
  have hnonneg := (zero_le_iff.1 h.nonneg).place_nonneg
  have hvalue : ∃ q, value? x = some q := by
    unfold IsNumber at hx
    unfold place at hlt hnonneg
    unfold value?
    cases hparts : parts x with
    | nan => exact absurd hparts hx
    | infinite negative =>
      rw [hparts] at hlt hnonneg
      cases negative
      · exact absurd hlt (by decide +kernel)
      · exact absurd hnonneg (by decide)
    | finite negative mantissa exponent => exact ⟨_, rfl⟩
  obtain ⟨q, hq⟩ := hvalue
  refine ⟨q, hq, ?_, ?_⟩
  · rw [value?_le_iff value?_zero hq, place_zero]
    exact hnonneg
  · rw [← not_le, value?_le_iff value?_inchLimit hq, not_le]
    exact hlt

theorem IsWholeInches.isInchSize {x : Float} (h : IsWholeInches x) : IsInchSize x := by
  obtain ⟨n, hn, hx⟩ := h
  have hnumber := isNumber_of_value? hx
  constructor
  · rw [zero_le_iff]
    refine ⟨hnumber, ?_⟩
    rw [← place_zero, ← value?_le_iff value?_zero hx]
    exact n.cast_nonneg
  · rw [lt_iff]
    refine ⟨hnumber, isNumber_of_value? value?_inchLimit, ?_⟩
    rw [← not_le, ← value?_le_iff value?_inchLimit hx, not_le]
    exact_mod_cast hn

theorem IsWholeInches.trunc_eq {x : Float} (h : IsWholeInches x) : trunc x = x := by
  obtain ⟨n, -, hx⟩ := h
  exact toWhole_of_value? .towardZero hx

namespace Size

/-! ### Writing -/

/-- Inches are written as a numeral that is read as a number of the same whole part: without a
fraction the digits of the whole part, else all that the number displays. -/
theorem exists_numeral_inchesText {x : Float} (h : IsInchSize x) :
    ∃ numeral y, inchesText x = String.ofList (numeral ++ ['"']) ∧ IsPlainNumeral numeral ∧
      read numeral = some y ∧ (trunc y == trunc x) = true := by
  obtain ⟨q, hx, hq, hlt⟩ := h.exists_value?
  have htrunc := value?_trunc_of_nonneg hx hq
  unfold inchesText
  by_cases hfract : (fract x == 0) = true
  · obtain ⟨n, hn⟩ := Int.eq_ofNat_of_zero_le (Int.floor_nonneg.2 hq)
    rw [hn, Int.cast_natCast] at htrunc
    obtain ⟨hnumber, hnumber', hplace, hvalue⟩ := nearest_value htrunc
    refine ⟨Nat.toDigits 10 n, nearest false n 1, ?_, isPlainNumeral_toDigits n,
      read_toDigits n, ?_⟩
    · rw [if_pos hfract, toInt64_of_nonneg hx hq hlt, hn, String.ofList_append]
      change Nat.repr n ++ _ = _
      rw [Nat.repr_eq_ofList_toDigits]
    · rw [show trunc (nearest false n 1) = nearest false n 1 from
        toWhole_of_value? .towardZero hvalue]
      exact beq_iff.2 ⟨hnumber', hnumber, hplace⟩
  · have hunsigned : IsUnsigned x := by
      obtain ⟨negative, mantissa, exponent, hparts, rfl, hsign⟩ := exists_parts_of_nonneg hx hq
      cases negative with
      | false => exact isUnsigned_of_parts hparts
      | true =>
        -- Of the numbers with a sign only the negative zero is left, which has no fraction.
        refine absurd (fract_of_value? (n := 0) ?_) hfract
        rw [hx, hsign rfl, Nat.cast_zero, zero_mul]
    refine ⟨textChars plain x, x, ?_, isPlainNumeral_textChars hunsigned, read_textChars hunsigned,
      beq_iff.2 ⟨isNumber_of_value? htrunc, isNumber_of_value? htrunc, rfl⟩⟩
    rw [if_neg hfract, String.ofList_append]
    rfl

/-- The characters of two numerals, each in inches. -/
def sidesChars (width height : List Char) : List Char :=
  width ++ '"' :: ' ' :: 'x' :: ' ' :: (height ++ ['"'])

theorem toList_rectText {x y : Float} {width height : List Char}
    (hwidth : inchesText x = String.ofList (width ++ ['"']))
    (hheight : inchesText y = String.ofList (height ++ ['"'])) :
    (rectText x y).toList = sidesChars width height := by
  unfold rectText sidesChars
  rw [hwidth, hheight, String.toList_append, String.toList_append, String.toList_ofList,
    String.toList_ofList]
  simp

/-! ### Reading -/

theorem isDecimalDigit_of_isDigit {c : Char} (hc : c.isDigit = true) : isDecimalDigit c = true := by
  unfold isDecimalDigit
  rw [hc, Bool.true_or]

section Numerals

variable {width height : List Char}

theorem takeWhile_isDecimalDigit {digits rest : List Char} {c : Char}
    (hdigits : ∀ d ∈ digits, d.isDigit = true) (hc : isDecimalDigit c = false) :
    (digits ++ c :: rest).takeWhile isDecimalDigit = digits ∧
      (digits ++ c :: rest).dropWhile isDecimalDigit = c :: rest := by
  have hall : ∀ d ∈ digits, isDecimalDigit d = true := fun d hd ↦
    isDecimalDigit_of_isDigit (hdigits d hd)
  rw [List.takeWhile_append_of_pos hall, List.takeWhile_cons_of_neg (by simp [hc]),
    List.append_nil, List.dropWhile_append_of_pos hall, List.dropWhile_cons_of_neg (by simp [hc])]
  exact ⟨rfl, rfl⟩

/-- A numeral is taken as far as its unit. -/
theorem atFront_of_isPlainNumeral (h : IsPlainNumeral width) {c : Char}
    (hc : isDecimalDigit c = false) (hne : c ≠ '.') (rest : List Char) :
    Numeral.atFront (width ++ c :: rest) = some (width, c :: rest) := by
  unfold Numeral.atFront
  cases h with
  | whole hwidth hdigits =>
    obtain ⟨hwhole, hrest⟩ : (width ++ c :: rest).takeWhile isDecimalDigit = width ∧ _ :=
      takeWhile_isDecimalDigit hdigits hc
    rw [hwhole, hrest]
    simp [hwidth, hne]
  | @pointed whole fraction hwidth hfraction hdigits =>
    have hpoint : isDecimalDigit '.' = false := by decide
    have hfirst : ∀ c ∈ whole, c.isDigit = true := fun c hc ↦
      hdigits c (List.mem_append_left _ hc)
    have hlast : ∀ c ∈ fraction, c.isDigit = true := fun c hc ↦
      hdigits c (List.mem_append_right _ hc)
    obtain ⟨hwhole, hrest⟩ :
        (whole ++ '.' :: (fraction ++ c :: rest)).takeWhile isDecimalDigit = whole ∧ _ :=
      takeWhile_isDecimalDigit hfirst hpoint
    obtain ⟨hfraction', hrest'⟩ :
        (fraction ++ c :: rest).takeWhile isDecimalDigit = fraction ∧ _ :=
      takeWhile_isDecimalDigit hlast hc
    rw [List.append_assoc, List.cons_append, hwhole, hrest]
    simp [hwidth, hfraction, hfraction', hrest']

theorem isDecimalDigit_quote : isDecimalDigit '"' = false := by decide

theorem sideAtFront_of_isPlainNumeral (h : IsPlainNumeral width) (rest : List Char) :
    sideAtFront (width ++ '"' :: rest) = some (⟨width, some .inches⟩, rest) := by
  unfold sideAtFront
  rw [atFront_of_isPlainNumeral h isDecimalDigit_quote (by decide)]
  rfl

theorem pairAtFront_sidesChars (hwidth : IsPlainNumeral width) (hheight : IsPlainNumeral height) :
    pairAtFront (sidesChars width height) =
      some (⟨width, some .inches⟩, ⟨height, some .inches⟩) := by
  have hblank : trimStart (' ' :: 'x' :: ' ' :: (height ++ ['"'])) =
      'x' :: ' ' :: (height ++ ['"']) := rfl
  have hdigit : trimStart (' ' :: (height ++ ['"'])) = height ++ ['"'] := by
    obtain ⟨c, cs, rfl, hc⟩ := exists_cons_of_isPlainNumeral hheight
    change trimStart (c :: cs ++ ['"']) = _
    have hblank : ¬ isBlank c = true := by simp [isBlank_of_visible (visible_of_isDigit hc)]
    rw [trimStart, List.cons_append, List.dropWhile_cons_of_neg hblank]
  unfold pairAtFront sidesChars
  rw [sideAtFront_of_isPlainNumeral hwidth]
  simp only [Option.bind_some, hblank, hdigit]
  rw [sideAtFront_of_isPlainNumeral hheight]
  rfl

theorem lowercase_sidesChars (hwidth : IsPlainNumeral width) (hheight : IsPlainNumeral height) :
    lowercase (sidesChars width height) = sidesChars width height := by
  have hnumeral {cs : List Char} (h : IsPlainNumeral cs) : ∀ c ∈ cs,
      c.toNat < 0x80 ∧ ¬ (65 ≤ c.toNat ∧ c.toNat ≤ 90) := by
    intro c hc
    have hrange := range_of_mem_isPlainNumeral h c hc
    omega
  have hsides : ∀ c ∈ sidesChars width height,
      c.toNat < 0x80 ∧ ¬ (65 ≤ c.toNat ∧ c.toNat ≤ 90) := by
    intro c hc
    simp only [sidesChars, List.mem_append, List.mem_cons, List.not_mem_nil, or_false] at hc
    rcases hc with hc | rfl | rfl | rfl | rfl | hc | rfl
    · exact hnumeral hwidth c hc
    · decide
    · decide
    · decide
    · decide
    · exact hnumeral hheight c hc
    · decide
  exact (lowerAfter_of_lt fun c hc ↦ (hsides c hc).1).trans
    (lowerAscii_eq_self fun c hc ↦ (hsides c hc).2)

theorem firstPair_of_pairAtFront {cs : List Char} {pair : Side × Side} (hcs : cs ≠ [])
    (h : pairAtFront cs = some pair) : firstPair cs = some pair := by
  obtain ⟨c, rest, rfl⟩ := List.exists_cons_of_ne_nil hcs
  unfold firstPair
  rw [h]

/-- A text of two numerals in inches is read as their values, cut to whole inches. -/
theorem ofText?_of_sidesChars {text : String} {x y : Float} (hwidth : IsPlainNumeral width)
    (hheight : IsPlainNumeral height) (hx : read width = some x) (hy : read height = some y)
    (htext : text.toList = sidesChars width height) :
    ofText? text = .ok ⟨trunc x, trunc y⟩ := by
  have hpair : firstPair (lowercase text.toList) =
      some (⟨width, some .inches⟩, ⟨height, some .inches⟩) := by
    rw [htext, lowercase_sidesChars hwidth hheight]
    exact firstPair_of_pairAtFront (by simp [sidesChars]) (pairAtFront_sidesChars hwidth hheight)
  unfold ofText? Side.wholeInches?
  rw [hpair]
  simp only [Option.bind_some, hx, hy, Option.map_some]
  rfl

end Numerals

/-- The first numeral of a text that begins with one. -/
theorem firstValue_of_isPlainNumeral {numeral : List Char} (h : IsPlainNumeral numeral) {c : Char}
    (hc : isDecimalDigit c = false) (hne : c ≠ '.') (rest : List Char) :
    Numeral.firstValue (numeral ++ c :: rest) = read numeral := by
  have hdrop : (numeral ++ c :: rest).dropWhile (fun c ↦ !isDecimalDigit c) =
      numeral ++ c :: rest := by
    obtain ⟨d, cs, hcs, hd⟩ := exists_cons_of_isPlainNumeral h
    rw [hcs, List.cons_append, List.dropWhile_cons_of_neg (by simp [isDecimalDigit_of_isDigit hd])]
  unfold Numeral.firstValue Numeral.first
  rw [hdrop, atFront_of_isPlainNumeral h hc hne]
  rfl

/-! ### Round trips -/

section RoundTrips

variable {width height diameter : Float}

/-- Reading the text of a rectangle gives back the whole inches of its sides. -/
theorem ofText?_rectText_trunc (hwidth : IsInchSize width) (hheight : IsInchSize height) :
    ∃ d, ofText? (rectText width height) = .ok d ∧
      (d.width == trunc width) = true ∧ (d.height == trunc height) = true := by
  obtain ⟨first, x, hfirst, hplain, hx, hwhole⟩ := exists_numeral_inchesText hwidth
  obtain ⟨second, y, hsecond, hplain', hy, hwhole'⟩ := exists_numeral_inchesText hheight
  exact ⟨_, ofText?_of_sidesChars hplain hplain' hx hy (toList_rectText hfirst hsecond), hwhole,
    hwhole'⟩

theorem diameterOfText?_diameterText_trunc (h : IsInchSize diameter) :
    ∃ d, diameterOfText? (diameterText diameter) = .ok d ∧ (d == trunc diameter) = true := by
  obtain ⟨numeral, x, hnumeral, hplain, hx, hwhole⟩ := exists_numeral_inchesText h
  have htext : (diameterText diameter).toList = numeral ++ '"' :: " diameter".toList := by
    unfold diameterText
    rw [hnumeral, String.toList_append, String.toList_ofList, List.append_assoc]
    rfl
  refine ⟨trunc x, ?_, hwhole⟩
  unfold diameterOfText?
  rw [htext, firstValue_of_isPlainNumeral hplain isDecimalDigit_quote (by decide), hx]

/-- Reading the text of a rectangle of whole inches gives back its sides. -/
theorem ofText?_rectText (hwidth : IsWholeInches width) (hheight : IsWholeInches height) :
    ∃ d, ofText? (rectText width height) = .ok d ∧
      (d.width == width) = true ∧ (d.height == height) = true := by
  have hread := ofText?_rectText_trunc hwidth.isInchSize hheight.isInchSize
  rwa [hwidth.trunc_eq, hheight.trunc_eq] at hread

theorem diameterOfText?_diameterText (h : IsWholeInches diameter) :
    ∃ d, diameterOfText? (diameterText diameter) = .ok d ∧ (d == diameter) = true := by
  have hread := diameterOfText?_diameterText_trunc h.isInchSize
  rwa [h.trunc_eq] at hread

end RoundTrips

end Size

end Ventilation
