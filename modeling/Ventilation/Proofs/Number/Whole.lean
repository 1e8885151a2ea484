import Ventilation.Proofs.Number.Exact
import Ventilation.Proofs.Number.NearestEven
import Ventilation.Proofs.Number.Representable
import Ventilation.Proofs.Number.Shortest

/-!
# Whole parts

A finite number is cut up, down or toward zero as its value is: `value?_floor`, `value?_ceil` and
`value?_trunc`. No rounding to a whole number changes the whole part of a number that has no sign
any more. Integers are whole numbers also where they have too many bits and are rounded.
-/

set_option autoImplicit false
set_option relaxedAutoImplicit false

namespace Ventilation.Binary64

/-- A finite number without a sign; of the two zeros the positive one. -/
structure IsUnsigned (x : Float) : Prop where
  isFinite : x.isFinite = true
  isNegative_eq : (parts x).isNegative = false

variable {x : Float} {mantissa : ℕ} {exponent : ℤ}

theorem IsUnsigned.exists_parts (h : IsUnsigned x) :
    ∃ mantissa exponent, parts x = .finite false mantissa exponent := by
  have hfinite : x.toModel.unpack.isFinite = true := h.isFinite
  have hsign := h.isNegative_eq
  rw [unpack_toModel] at hfinite
  cases hx : parts x with
  | nan =>
    rw [hx] at hfinite
    cases hfinite
  | infinite negative =>
    rw [hx] at hfinite
    cases hfinite
  | finite negative mantissa exponent =>
    rw [hx] at hsign
    obtain rfl : negative = false := hsign
    exact ⟨mantissa, exponent, rfl⟩

theorem isUnsigned_of_parts (h : parts x = .finite false mantissa exponent) :
    IsUnsigned x := by
  refine ⟨?_, by rw [h]; rfl⟩
  change x.toModel.unpack.isFinite = true
  rw [unpack_toModel, h]
  by_cases hm : mantissa = 0 <;> simp only [Parts.unpacked, hm, ↓reduceDIte] <;> rfl

/-- Whole numbers of at most 53 bits are numbers, with either sign. -/
theorem value?_nearest_signed (negative : Bool) {n : ℕ} (hlt : n < 2 ^ 53) :
    value? (nearest negative n 1) = some ((bif negative then -1 else 1 : ℚ) * n) := by
  have h := isRepresentable_signed negative hlt (e := 0) (by decide) (by decide)
  rw [zpow_zero, mul_one, ← div_one (n : ℚ), ← Nat.cast_one] at h
  rw [value?_nearest_of_isRepresentable negative one_pos h, Nat.cast_one, div_one]

theorem value?_nearest {n : ℕ} (hlt : n < 2 ^ 53) : value? (nearest false n 1) = some (n : ℚ) := by
  rw [value?_nearest_signed false hlt, cond_false, one_mul]

/-- A number is whole and stays as it is, or has fewer than 53 bits before its fraction. -/
theorem isWhole_or_fraction {q : ℚ} (h : value? x = some q) :
    (∃ n : ℤ, q = n ∧ ∀ direction, toWhole direction x = x) ∨
      ∃ (negative : Bool) (n unit : ℕ), q = (bif negative then -1 else 1) * (n / unit) ∧ 0 < unit ∧
        n / unit + 1 < 2 ^ 53 ∧ ∀ direction, toWhole direction x =
          nearest negative (n / unit + if direction.raises negative (n % unit) unit then 1 else 0)
            1 := by
  obtain ⟨negative, mantissa, exponent, hx, rfl⟩ := exists_parts h
  have hcanonical : (Parts.finite negative mantissa exponent).IsCanonical :=
    hx ▸ isCanonical_parts x
  by_cases he : 0 ≤ exponent
  · obtain ⟨k, rfl⟩ := Int.eq_ofNat_of_zero_le he
    refine .inl ⟨(bif negative then -1 else 1) * (mantissa * 2 ^ k : ℕ), ?_, fun direction ↦ ?_⟩
    · cases negative <;> push_cast <;> rfl
    · unfold toWhole
      rw [hx]
      exact if_pos he
  · refine .inr ⟨negative, mantissa, twoTo (-exponent).toNat, ?_, Nat.two_pow_pos _, ?_,
      fun direction ↦ ?_⟩
    · have hwhole : exponent.toNat = 0 := Int.toNat_of_nonpos (by omega)
      rw [two_zpow_eq_div, hwhole, pow_zero, cast_twoTo, mul_one_div]
    · have hunit : 2 ≤ twoTo (-exponent).toNat := Nat.le_self_pow (by omega) 2
      have hhalf := Nat.div_le_div_left hunit two_pos (a := mantissa)
      have hlt : mantissa < 2 ^ 53 := hcanonical.1
      omega
    · unfold toWhole
      rw [hx]
      exact if_neg he

/-- A magnitude goes up to the next whole number if it has a fraction. -/
theorem ceil_natCast_div {n unit : ℕ} (hunit : 0 < unit) :
    ⌈(n : ℚ) / unit⌉ = ((n / unit + if decide (n % unit ≠ 0) then 1 else 0 : ℕ) : ℤ) := by
  have hn : (unit : ℚ) * (n / unit : ℕ) + (n % unit : ℕ) = n := by
    exact_mod_cast Nat.div_add_mod n unit
  have hrest : ((n % unit : ℕ) : ℚ) < unit := by exact_mod_cast Nat.mod_lt n hunit
  have hpos : (0 : ℚ) < unit := by exact_mod_cast hunit
  rw [Int.ceil_eq_iff, lt_div_iff₀ hpos, div_le_iff₀ hpos]
  generalize n / unit = whole at hn ⊢
  by_cases hzero : n % unit = 0
  · rw [hzero, Nat.cast_zero] at hn
    rw [if_neg (by simpa using hzero)]
    push_cast
    constructor <;> linarith
  · have hleft : (0 : ℚ) < (n % unit : ℕ) := by exact_mod_cast Nat.pos_of_ne_zero hzero
    rw [if_pos (by simpa using hzero)]
    push_cast
    constructor <;> linarith

theorem floor_natCast_div (n unit : ℕ) : ⌊(n : ℚ) / unit⌋ = ((n / unit : ℕ) : ℤ) := by
  rw [Rat.floor_natCast_div_natCast, Int.natCast_div]

theorem value?_floor {q : ℚ} (h : value? x = some q) : value? (floor x) = some (⌊q⌋ : ℚ) := by
  rcases isWhole_or_fraction h with
    ⟨n, rfl, hstay⟩ | ⟨negative, n, unit, rfl, hunit, hlt, hwhole⟩
  · rw [floor, hstay, h, Int.floor_intCast]
  · rw [floor, hwhole, value?_nearest_signed negative (by split <;> omega)]
    cases negative with
    | false =>
      rw [cond_false, one_mul, one_mul, floor_natCast_div, Int.cast_natCast]
      rfl
    | true =>
      rw [cond_true, neg_one_mul, neg_one_mul, Int.floor_neg, ceil_natCast_div hunit, Int.cast_neg,
        Int.cast_natCast]
      rfl

theorem value?_ceil {q : ℚ} (h : value? x = some q) : value? (ceil x) = some (⌈q⌉ : ℚ) := by
  rcases isWhole_or_fraction h with
    ⟨n, rfl, hstay⟩ | ⟨negative, n, unit, rfl, hunit, hlt, hwhole⟩
  · rw [ceil, hstay, h, Int.ceil_intCast]
  · rw [ceil, hwhole, value?_nearest_signed negative (by split <;> omega)]
    cases negative with
    | false =>
      rw [cond_false, one_mul, one_mul, ceil_natCast_div hunit, Int.cast_natCast]
      rfl
    | true =>
      rw [cond_true, neg_one_mul, neg_one_mul, Int.ceil_neg, floor_natCast_div, Int.cast_neg,
        Int.cast_natCast]
      rfl

theorem value?_trunc {q : ℚ} (h : value? x = some q) :
    value? (trunc x) = some (Scalar.trunc q) := by
  rcases isWhole_or_fraction h with
    ⟨n, rfl, hstay⟩ | ⟨negative, n, unit, rfl, hunit, hlt, hwhole⟩
  · rw [trunc, hstay, h, Scalar.trunc_intCast]
  · have hmagnitude : (0 : ℚ) ≤ n / unit := by positivity
    have hraises : Direction.raises .towardZero negative (n % unit) unit = false := rfl
    rw [trunc, hwhole, hraises, if_neg Bool.false_ne_true, Nat.add_zero,
      value?_nearest_signed negative (Nat.lt_of_succ_lt hlt)]
    cases negative with
    | false =>
      rw [cond_false, one_mul, one_mul, Scalar.trunc_of_nonneg hmagnitude, floor_natCast_div,
        Int.cast_natCast]
    | true =>
      rw [cond_true, neg_one_mul, neg_one_mul, Scalar.trunc_neg hmagnitude, floor_natCast_div,
        Int.cast_natCast]

theorem value?_trunc_of_nonneg {q : ℚ} (h : value? x = some q) (hq : 0 ≤ q) :
    value? (trunc x) = some (⌊q⌋ : ℚ) := by
  rw [value?_trunc h, Scalar.trunc_of_nonneg hq]

theorem IsUnsigned.exists_value? (h : IsUnsigned x) : ∃ q : ℚ, value? x = some q ∧ 0 ≤ q := by
  obtain ⟨mantissa, exponent, hx⟩ := h.exists_parts
  exact ⟨_, value?_of_parts hx (by simp), by positivity⟩

theorem trunc_le (h : IsUnsigned x) : trunc x ≤ x := by
  obtain ⟨q, hx, hq⟩ := h.exists_value?
  have htrunc := value?_trunc_of_nonneg hx hq
  exact le_iff.2 ⟨isNumber_of_value? htrunc, isNumber_of_value? hx,
    (value?_le_iff htrunc hx).1 (Int.floor_le q)⟩

theorem toWhole_trunc (direction : Direction) (h : IsUnsigned x) :
    toWhole direction (trunc x) = trunc x := by
  obtain ⟨q, hx, hq⟩ := h.exists_value?
  have htrunc := value?_trunc_of_nonneg hx hq
  rw [← Int.toNat_of_nonneg (Int.floor_nonneg.2 hq), Int.cast_natCast] at htrunc
  exact toWhole_of_value? direction htrunc

/-! ### Integers of more than 53 bits -/

/-- A mantissa that rounding carries to 2 ^ 53 is that of the next exponent. -/
theorem exists_parts_ofParts (negative : Bool) {m : ℕ} {e : ℤ} (hm : m ≤ 2 ^ 53)
    (hleast : leastExponent ≤ e) (hnormal : 2 ^ 52 ≤ m ∨ e = leastExponent)
    (he : e ≤ 970 ∨ e = 971 ∧ m < 2 ^ 53) :
    ∃ k f, parts (ofParts negative m e) = .finite negative k f ∧ (k : ℚ) * 2 ^ f = m * 2 ^ e := by
  rcases hm.lt_or_eq with hlt | rfl
  · exact ⟨m, e, parts_ofParts ⟨hlt, hleast, by omega, hnormal⟩, rfl⟩
  · have hcarry : ofParts negative (2 ^ 53) (e + 1 - 1) = ofParts negative (2 ^ 52) (e + 1) :=
      ofParts_carry (by omega)
    unfold leastExponent at hleast
    have hcanonical : (Parts.finite negative (2 ^ 52) (e + 1)).IsCanonical :=
      ⟨by decide, by omega, by omega, .inl le_rfl⟩
    rw [add_sub_cancel_right] at hcarry
    refine ⟨2 ^ 52, e + 1, (congrArg parts hcarry).trans (parts_ofParts hcanonical), ?_⟩
    rw [zpow_add₀ two_ne_zero]
    push_cast
    ring

theorem value?_ofParts (negative : Bool) {m : ℕ} {e : ℤ} (hm : m ≤ 2 ^ 53)
    (hleast : leastExponent ≤ e) (hnormal : 2 ^ 52 ≤ m ∨ e = leastExponent)
    (he : e ≤ 970 ∨ e = 971 ∧ m < 2 ^ 53) :
    value? (ofParts negative m e) = some ((bif negative then -1 else 1 : ℚ) * (m * 2 ^ e)) := by
  obtain ⟨k, f, hparts, hvalue⟩ := exists_parts_ofParts negative hm hleast hnormal he
  rw [value?_of_finite hparts, hvalue]

/-- Integers that are not negative are rounded to whole numbers. -/
theorem exists_value?_nearest {n : ℕ} (hlt : n < 2 ^ 63) :
    ∃ m : ℕ, m ≤ 2 ^ 63 ∧ value? (nearest false n 1) = some (m : ℚ) := by
  rcases Nat.lt_or_ge n (2 ^ 53) with hsmall | hlarge
  · exact ⟨n, hlt.le, value?_nearest hsmall⟩
  · have hn : n ≠ 0 := by omega
    obtain ⟨k, hk⟩ : ∃ k, n.log2 = 52 + k :=
      Nat.exists_eq_add_of_le ((Nat.le_log2 hn).2 (by omega))
    have hk' : k ≤ 10 := by
      have := (Nat.log2_lt hn).2 hlt
      omega
    -- Counted in units of 2 ^ k the integer has 53 bits and a fraction.
    have hlow : ((2 ^ 52 : ℕ) : ℚ) ≤ n / 2 ^ k := by
      rw [le_div_iff₀ (by positivity)]
      have := Nat.log2_self_le hn
      rw [hk, pow_add] at this
      exact_mod_cast this
    have hhigh : (n : ℚ) / 2 ^ k < (2 ^ 53 : ℕ) := by
      rw [div_lt_iff₀ (by positivity)]
      have := Nat.lt_log2_self (n := n)
      rw [hk, show 52 + k + 1 = 53 + k by omega, pow_add] at this
      exact_mod_cast this
    have hexponent : max (Int.log 2 ((n : ℚ) / (1 : ℕ)) - 52) leastExponent = k := by
      have hunits : (n : ℚ) / (1 : ℕ) = n / 2 ^ k * 2 ^ (k : ℤ) := by
        rw [Nat.cast_one, div_one, zpow_natCast, div_mul_cancel₀ _ (by positivity)]
      rw [hunits]
      push_cast at hlow hhigh
      exact max_log_eq (by linarith) (by unfold leastExponent; omega) (.inr hlow) hhigh
    have hnearest : nearest false n 1 =
        ofParts false (roundEven ((n : ℚ) / (1 : ℕ) / 2 ^ (k : ℤ))) k :=
      nearest_eq_roundEven (Nat.pos_of_ne_zero hn) one_pos hexponent
    rw [Nat.cast_one, div_one, zpow_natCast] at hnearest
    have hmhigh := roundEven_le_natCast (by positivity) hhigh.le
    refine ⟨roundEven (n / 2 ^ k) * 2 ^ k, ?_, ?_⟩
    · calc roundEven (n / 2 ^ k) * 2 ^ k ≤ 2 ^ 53 * 2 ^ 10 :=
            Nat.mul_le_mul hmhigh (Nat.pow_le_pow_right (by decide) hk')
        _ = 2 ^ 63 := by norm_num
    · rw [hnearest, value?_ofParts false hmhigh (by unfold leastExponent; omega)
        (.inl (natCast_le_roundEven hlow)) (.inl (by omega)), cond_false, one_mul, zpow_natCast]
      push_cast
      rfl

end Ventilation.Binary64
