import Ventilation.Proofs.Measure.SizeText
import Ventilation.Proofs.Number.Range

/-!
# What is read as a size

Every text is read as two sides or refused with an error that carries it, `ofText?_cases`. A side is
a whole number of inches that is not negative, or infinite; it is infinite just where its numeral
lies beyond the range of numbers or is taken beyond it by the factor of its unit. That happens to
numerals within the range as well, `ofText?_infinite_feet`.
-/

set_option autoImplicit false
set_option relaxedAutoImplicit false

namespace Ventilation

open Text Binary64

/-! ### Numerals -/

namespace Numeral

/-- The exact value of a numeral: its digits, those after the point as decimal places. -/
def exactValue (cs : List Char) : ℚ :=
  Nat.ofDigitChars 10 (cs.filter Char.isDigit) 0 / 10 ^ (cs.dropWhile (· ≠ '.')).tail.length

theorem exactValue_whole {digits : List Char} (h : ∀ c ∈ digits, c.isDigit = true) :
    exactValue digits = (Nat.ofDigitChars 10 digits 0 : ℕ) / (1 : ℕ) := by
  have hpoint : digits.dropWhile (· ≠ '.') = [] := by
    rw [List.dropWhile_eq_nil_iff]
    exact fun c hc ↦ decide_eq_true (ne_of_isDigit (h c hc) (by decide))
  unfold exactValue
  rw [List.filter_eq_self.2 h, hpoint]
  simp

theorem exactValue_pointed {whole fraction : List Char}
    (h : ∀ c ∈ whole ++ fraction, c.isDigit = true) :
    exactValue (whole ++ '.' :: fraction) =
      Scientific.value ⟨Nat.ofDigitChars 10 (whole ++ fraction) 0, -fraction.length⟩ := by
  have hpoint : (whole ++ '.' :: fraction).dropWhile (· ≠ '.') = '.' :: fraction := by
    rw [List.dropWhile_append_of_pos, List.dropWhile_cons_of_neg (by simp)]
    exact fun c hc ↦
      decide_eq_true (ne_of_isDigit (h c (List.mem_append_left _ hc)) (by decide))
  have hdigits : (whole ++ '.' :: fraction).filter Char.isDigit = whole ++ fraction := by
    rw [List.filter_append, List.filter_cons_of_neg (by decide), ← List.filter_append,
      List.filter_eq_self.2 h]
  unfold exactValue Scientific.value
  rw [hpoint, hdigits, List.tail_cons, zpow_neg, zpow_natCast, div_eq_mul_inv]

/-- A numeral with digits of another script is taken from a text but cannot be read. -/
theorem isPlainNumeral_of_atFront {cs numeral rest : List Char} {x : Float}
    (h : atFront cs = some (numeral, rest)) (hread : read numeral = some x) :
    IsPlainNumeral numeral := by
  have hdigit {c : Char} (hc : c ∈ numeral) (hdecimal : isDecimalDigit c = true) :
      c.isDigit = true := by
    have hascii := lt_of_mem_read hread c hc
    simp only [isDecimalDigit, Bool.or_eq_true, Bool.and_eq_true, decide_eq_true_eq] at hdecimal
    exact hdecimal.resolve_right fun hwide ↦ absurd hascii (Nat.not_lt.2 hwide.1)
  have hwhole : ∀ c ∈ cs.takeWhile isDecimalDigit, isDecimalDigit c = true := fun c ↦
    List.mem_takeWhile_imp
  unfold atFront at h
  simp only [Option.ite_none_left_eq_some, List.isEmpty_iff] at h
  obtain ⟨hne, h⟩ := h
  split at h
  · next more hrest =>
    split at h
    · obtain ⟨rfl, -⟩ := Prod.mk.inj (Option.some.inj h)
      exact .whole hne fun c hc ↦ hdigit hc (hwhole c hc)
    · next hfraction =>
      obtain ⟨rfl, -⟩ := Prod.mk.inj (Option.some.inj h)
      refine .pointed hne (by simpa using hfraction) fun c hc ↦ ?_
      rcases List.mem_append.1 hc with hc | hc
      · exact hdigit (List.mem_append_left _ hc) (hwhole c hc)
      · exact hdigit (List.mem_append_right _ (List.mem_cons_of_mem _ hc))
          (List.mem_takeWhile_imp hc)
  · obtain ⟨rfl, -⟩ := Prod.mk.inj (Option.some.inj h)
    exact .whole hne fun c hc ↦ hdigit hc (hwhole c hc)

/-- A numeral is read as its value, rounded. -/
theorem isCapped_read {numeral : List Char} {x : Float} (h : IsPlainNumeral numeral)
    (hread : read numeral = some x) : IsCapped (exactValue numeral) x := by
  cases h with
  | whole hne hdigits =>
    rw [read_of_isDigit hne hdigits] at hread
    rw [← Option.some.inj hread, exactValue_whole hdigits]
    exact isCapped_nearest one_pos
  | pointed hwhole hfraction hdigits =>
    rw [read_pointed hwhole hdigits] at hread
    rw [← Option.some.inj hread, exactValue_pointed hdigits]
    exact isCapped_ofDecimal _

end Numeral

/-! ### Units -/

/-- What a length in this unit is multiplied by before it is in inches; it may be divided after. -/
def LengthUnit.factor : LengthUnit → ℚ
  | .feet => 12
  | .meters => 1000
  | _ => 1

section Units

variable {x : Float}

theorem LengthUnit.toPhysicalInches_infinity (unit : LengthUnit) :
    unit.toPhysicalInches infinity = infinity := by
  cases unit <;> exact eq_infinity_of_parts (by decide +kernel)

theorem isUnsigned_mmPerInch :
    IsUnsigned LengthUnit.mmPerInch ∧ 1 ≤ rational LengthUnit.mmPerInch := by
  have hparts : parts LengthUnit.mmPerInch = .finite false 7149464408450662 (-48) := by
    decide +kernel
  refine ⟨isUnsigned_of_parts hparts, ?_⟩
  rw [rational_of_parts hparts]
  norm_num

theorem isUnsigned_cmPerInch :
    IsUnsigned (LengthUnit.mmPerInch / 10) ∧ 1 ≤ rational (LengthUnit.mmPerInch / 10) := by
  have hparts : parts (LengthUnit.mmPerInch / 10) = .finite false 5719571526760530 (-51) := by
    decide +kernel
  refine ⟨isUnsigned_of_parts hparts, ?_⟩
  rw [rational_of_parts hparts]
  norm_num

theorem isUnsigned_twelve : IsUnsigned 12 ∧ rational 12 = 12 := by
  have hparts : parts 12 = .finite false (12 * 2 ^ 49) (-49) := by decide +kernel
  refine ⟨isUnsigned_of_parts hparts, ?_⟩
  rw [rational_of_parts hparts]
  norm_num

theorem isUnsigned_thousand : IsUnsigned 1000 ∧ rational 1000 = 1000 := by
  have hparts : parts 1000 = .finite false (1000 * 2 ^ 43) (-43) := by decide +kernel
  refine ⟨isUnsigned_of_parts hparts, ?_⟩
  rw [rational_of_parts hparts]
  norm_num

/-- A finite length is infinite in inches just if the factor of its unit takes it beyond the range:
no division brings it there, or back. -/
theorem LengthUnit.toPhysicalInches_of_isUnsigned (unit : LengthUnit) (hx : IsUnsigned x) :
    (unit.toPhysicalInches x = infinity ∨ IsUnsigned (unit.toPhysicalInches x)) ∧
      (unit.toPhysicalInches x = infinity ↔ overflow ≤ rational x * unit.factor) := by
  have hfinite {y : Float} (hy : IsUnsigned y) :
      (y = infinity ∨ IsUnsigned y) ∧ (y = infinity ↔ overflow ≤ rational x * 1) := by
    rw [mul_one]
    exact ⟨.inr hy, iff_of_false hy.ne_infinity (not_le.2 (rational_lt_overflow hx))⟩
  cases unit with
  | inches => exact hfinite hx
  | millimeters => exact hfinite (isUnsigned_div hx isUnsigned_mmPerInch.1 isUnsigned_mmPerInch.2)
  | centimeters => exact hfinite (isUnsigned_div hx isUnsigned_cmPerInch.1 isUnsigned_cmPerInch.2)
  | feet =>
    have hfeet := isCapped_mul hx isUnsigned_twelve.1
    rw [isUnsigned_twelve.2] at hfeet
    exact ⟨hfeet.eq_infinity_or_isUnsigned, hfeet.eq_infinity_iff⟩
  | meters =>
    have hmillimeters := isCapped_mul hx isUnsigned_thousand.1
    rw [isUnsigned_thousand.2] at hmillimeters
    change (x * 1000 / mmPerInch = infinity ∨ IsUnsigned (x * 1000 / mmPerInch)) ∧
      (x * 1000 / mmPerInch = infinity ↔ overflow ≤ rational x * 1000)
    rw [← hmillimeters.eq_infinity_iff]
    rcases hmillimeters.eq_infinity_or_isUnsigned with hinfinite | hunsigned
    · have hinches := toPhysicalInches_infinity .millimeters
      rw [hinfinite]
      exact ⟨.inl hinches, iff_of_true hinches rfl⟩
    · have hinches := isUnsigned_div hunsigned isUnsigned_mmPerInch.1 isUnsigned_mmPerInch.2
      exact ⟨.inr hinches, iff_of_false hinches.ne_infinity hunsigned.ne_infinity⟩

theorem LengthUnit.toPhysicalInches_cases (unit : LengthUnit) (h : x = infinity ∨ IsUnsigned x) :
    (unit.toPhysicalInches x = infinity ∨ IsUnsigned (unit.toPhysicalInches x)) ∧
      (unit.toPhysicalInches x = infinity ↔
        x = infinity ∨ overflow ≤ rational x * unit.factor) := by
  rcases h with rfl | hx
  · have hinches := unit.toPhysicalInches_infinity
    exact ⟨.inl hinches, iff_of_true hinches (.inl rfl)⟩
  · obtain ⟨hinches, hinfinite⟩ := unit.toPhysicalInches_of_isUnsigned hx
    exact ⟨hinches, hinfinite.trans (or_iff_right hx.ne_infinity).symm⟩

end Units

/-! ### Sides -/

namespace Size

/-- What a side can be read as: a whole number that is not negative, or infinity, which stands for
a numeral beyond the range or one that its unit takes there. -/
structure Side.IsReadAs (side : Side) (x : Float) : Prop where
  whole : x = infinity ∨ ∃ n : ℕ, value? x = some (n : ℚ)
  infinite_iff : x = infinity ↔ overflow ≤ Numeral.exactValue side.numeral ∨
    ∃ y, read side.numeral = some y ∧ overflow ≤ rational y * (side.unit.getD .inches).factor

theorem isPlainNumeral_of_sideAtFront {cs rest : List Char} {side : Side} {x : Float}
    (h : sideAtFront cs = some (side, rest)) (hread : read side.numeral = some x) :
    IsPlainNumeral side.numeral := by
  obtain ⟨⟨numeral, rest'⟩, hfront, hside⟩ := Option.map_eq_some_iff.1 h
  obtain ⟨rfl, -⟩ := Prod.mk.inj hside
  exact Numeral.isPlainNumeral_of_atFront hfront hread

theorem isReadAs_of_sideAtFront {cs rest : List Char} {side : Side} {x : Float}
    (hside : sideAtFront cs = some (side, rest)) (h : side.wholeInches? = some x) :
    side.IsReadAs x := by
  obtain ⟨y, hread, rfl⟩ := Option.map_eq_some_iff.1 h
  have hcapped := Numeral.isCapped_read (isPlainNumeral_of_sideAtFront hside hread) hread
  obtain ⟨hinches, hinfinite⟩ :=
    (side.unit.getD .inches).toPhysicalInches_cases hcapped.eq_infinity_or_isUnsigned
  constructor
  · exact hinches.imp (trunc_eq_infinity_iff hinches).2 exists_value?_trunc
  · rw [trunc_eq_infinity_iff hinches, hinfinite, hcapped.eq_infinity_iff, hread]
    simp only [Option.some.injEq, exists_eq_left']

/-! ### Texts -/

theorem exists_sideAtFront_of_firstPair {cs : List Char} {width height : Side}
    (h : firstPair cs = some (width, height)) :
    (∃ cs' rest, sideAtFront cs' = some (width, rest)) ∧
      ∃ cs' rest, sideAtFront cs' = some (height, rest) := by
  induction cs with
  | nil => cases h
  | cons c cs ih =>
    unfold firstPair at h
    split at h
    · next pair hpair =>
      obtain rfl := Option.some.inj h
      obtain ⟨⟨first, rest⟩, hfirst, hpair⟩ := Option.bind_eq_some_iff.1 hpair
      simp only at hpair
      split at hpair
      · next rest' _ =>
        obtain ⟨⟨second, last⟩, hsecond, hpair⟩ := Option.map_eq_some_iff.1 hpair
        obtain ⟨rfl, rfl⟩ := Prod.mk.inj hpair
        exact ⟨⟨_, _, hfirst⟩, _, _, hsecond⟩
      · cases hpair
    · exact ih h

theorem ofText?_eq_ok {text : String} {width height : Side} {x y : Float}
    (hpair : firstPair (lowercase text.toList) = some (width, height))
    (hx : width.wholeInches? = some x) (hy : height.wholeInches? = some y) :
    ofText? text = .ok ⟨x, y⟩ := by
  unfold ofText?
  rw [hpair]
  simp only [Option.bind_some, hx, hy, Option.map_some]

/-- How a text is read: by the first two sides in it, if there are two and both can be read; else it
is refused and the error carries it. -/
theorem ofText?_cases (text : String) :
    (∃ width height d, firstPair (lowercase text.toList) = some (width, height) ∧
      ofText? text = .ok d ∧ width.IsReadAs d.width ∧ height.IsReadAs d.height) ∨
    (ofText? text = .error (.size text) ∧ ∀ width height,
      firstPair (lowercase text.toList) = some (width, height) →
        read width.numeral = none ∨ read height.numeral = none) := by
  cases hpair : firstPair (lowercase text.toList) with
  | none => exact .inr ⟨by simp [ofText?, hpair], fun width height h ↦ by cases h⟩
  | some pair =>
    obtain ⟨width, height⟩ := pair
    obtain ⟨⟨_, _, hwidth⟩, _, _, hheight⟩ := exists_sideAtFront_of_firstPair hpair
    cases hx : width.wholeInches? with
    | none =>
      refine .inr ⟨by simp [ofText?, hpair, hx], ?_⟩
      rintro _ _ ⟨⟩
      exact .inl (Option.map_eq_none_iff.1 hx)
    | some x =>
      cases hy : height.wholeInches? with
      | none =>
        refine .inr ⟨by simp [ofText?, hpair, hx, hy], ?_⟩
        rintro _ _ ⟨⟩
        exact .inr (Option.map_eq_none_iff.1 hy)
      | some y =>
        exact .inl ⟨width, height, ⟨x, y⟩, rfl, ofText?_eq_ok hpair hx hy,
          isReadAs_of_sideAtFront hwidth hx, isReadAs_of_sideAtFront hheight hy⟩

/-- Every sign that is taken for a unit names that unit, so none is ever refused. -/
theorem ofToken?_of_unitAtFront {cs rest : List Char} {unit : LengthUnit}
    (h : unitAtFront cs = (some unit, rest)) :
    ∃ sign, cs = sign ++ rest ∧ LengthUnit.ofToken? (String.ofList sign) = .ok unit := by
  unfold unitAtFront at h
  split at h
  · obtain ⟨rfl, rfl⟩ := h
    exact ⟨['m', 'm'], rfl, by decide +kernel⟩
  · obtain ⟨rfl, rfl⟩ := h
    exact ⟨['c', 'm'], rfl, by decide +kernel⟩
  · obtain ⟨rfl, rfl⟩ := h
    exact ⟨['f', 't'], rfl, by decide +kernel⟩
  · obtain ⟨rfl, rfl⟩ := h
    exact ⟨['i', 'n'], rfl, by decide +kernel⟩
  · obtain ⟨rfl, rfl⟩ := h
    exact ⟨['m'], rfl, by decide +kernel⟩
  · obtain ⟨rfl, rfl⟩ := h
    exact ⟨['"'], rfl, by decide +kernel⟩
  · obtain ⟨rfl, rfl⟩ := h
    exact ⟨['\''], rfl, by decide +kernel⟩
  · cases h

/-- What is written is read back as its whole inches, and every text is read as whole or infinite
sides or refused for being no size, not for its units. -/
theorem ofText?_recovers_or_refuses {width height : Float} (hwidth : IsInchSize width)
    (hheight : IsInchSize height) :
    (∃ d, ofText? (rectText width height) = .ok d ∧ (d.width == trunc width) = true ∧
      (d.height == trunc height) = true) ∧
    (∃ d, diameterOfText? (diameterText width) = .ok d ∧ (d == trunc width) = true) ∧
    (IsWholeInches width → trunc width = width) ∧
    (∀ text, (∃ first second d, firstPair (lowercase text.toList) = some (first, second) ∧
        ofText? text = .ok d ∧ first.IsReadAs d.width ∧ second.IsReadAs d.height) ∨
      (ofText? text = .error (.size text) ∧ ∀ first second,
        firstPair (lowercase text.toList) = some (first, second) →
          read first.numeral = none ∨ read second.numeral = none)) ∧
    (∀ cs rest unit, unitAtFront cs = (some unit, rest) →
      ∃ sign, cs = sign ++ rest ∧ LengthUnit.ofToken? (String.ofList sign) = .ok unit) :=
  ⟨ofText?_rectText_trunc hwidth hheight, diameterOfText?_diameterText_trunc hwidth,
    IsWholeInches.trunc_eq, ofText?_cases, fun _ _ _ ↦ ofToken?_of_unitAtFront⟩

theorem ofText?_recovers_or_refuses_inches : IsInchSize 12.5 ∧ IsInchSize 8 ∧
    (∃ d, ofText? (rectText 12.5 8) = .ok d ∧ (d.width == trunc 12.5) = true ∧
      (d.height == trunc 8) = true) ∧
    (∃ d, diameterOfText? (diameterText 12.5) = .ok d ∧ (d == trunc 12.5) = true) ∧
    ofText? "twelve by eight" = .error (.size "twelve by eight") := by
  have hwidth : IsInchSize 12.5 := ⟨by decide +kernel, by decide +kernel⟩
  have hheight : IsInchSize 8 := ⟨by decide +kernel, by decide +kernel⟩
  have hread := ofText?_recovers_or_refuses hwidth hheight
  refine ⟨hwidth, hheight, hread.1, hread.2.1, ?_⟩
  rcases hread.2.2.2.1 "twelve by eight" with ⟨first, second, d, hpair, -⟩ | hrefused
  · have hnone : (firstPair (lowercase "twelve by eight".toList)).isNone = true := by
      decide +kernel
    rw [hpair] at hnone
    cases hnone
  · exact hrefused.1

deriving instance DecidableEq for Side

/-- A numeral of 309 digits that is within the range, but not twelve times. -/
def farNumeral : List Char := '1' :: List.replicate 308 '0'

def feetText : String := String.ofList (farNumeral ++ ['f', 't', ' ', 'x', ' ', '1'])

/-- A numeral within the range can be taken to infinity by its unit. -/
theorem ofText?_infinite_feet : ∃ first second d,
    firstPair (lowercase feetText.toList) = some (first, second) ∧ ofText? feetText = .ok d ∧
      d.width = infinity ∧ Numeral.exactValue first.numeral < overflow := by
  have hpair : firstPair (lowercase feetText.toList) =
      some (⟨farNumeral, some .feet⟩, ⟨['1'], none⟩) := by
    unfold feetText
    rw [String.toList_ofList]
    decide +kernel
  have hwidth :
      (Side.wholeInches? ⟨farNumeral, some .feet⟩).map parts = some (.infinite false) := by
    decide +kernel
  obtain ⟨x, hx, hinfinite⟩ := Option.map_eq_some_iff.1 hwidth
  have hdigits : ∀ c ∈ farNumeral, c.isDigit = true := List.all_eq_true.1 (by decide +kernel)
  have hvalue : Nat.ofDigitChars 10 farNumeral 0 = 10 ^ 308 := by decide +kernel
  have hrange : (10 : ℚ) ^ 308 + 2 ^ 970 < 2 ^ 1024 := by
    exact_mod_cast (by decide +kernel : 10 ^ 308 + 2 ^ 970 < 2 ^ 1024)
  refine ⟨_, _, _, hpair, ofText?_eq_ok hpair hx rfl, eq_infinity_of_parts hinfinite, ?_⟩
  rw [Numeral.exactValue_whole hdigits, hvalue, Nat.cast_one, div_one, Nat.cast_pow,
    Nat.cast_ofNat, overflow]
  exact lt_sub_iff_add_lt.2 hrange

end Size

end Ventilation
