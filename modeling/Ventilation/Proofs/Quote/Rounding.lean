import Ventilation.Proofs.Number.HalfEven
import Ventilation.Quote.Decimal

/-!
# Rounded decimals

A result that needs more than 96 bits is rounded half to even, with as many decimals as fit. So the
rounded decimal of a value that is not negative depends on the value alone, and it never falls when
the value grows, `value_le_value`: a larger value keeps fewer decimals only once the next one no
longer fits, and by then it stands above all that the smaller value can be rounded to.
-/

set_option autoImplicit false
set_option relaxedAutoImplicit false

namespace Ventilation

namespace Decimal

/-! ### Values -/

/-- The exact value. -/
def value (a : Decimal) : ℚ := a.coefficient / 10 ^ a.scale

/-- A decimal that is not negative and keeps within 96 bits and 28 decimals. -/
structure IsAmount (a : Decimal) : Prop where
  nonneg : 0 ≤ a.coefficient
  lt_limit : a.coefficient < limit
  scale_le : a.scale ≤ maxScale

/-- The decimal is the given value, as far as it fits: it is exact, or has all decimals that there
can be, or there is no room for one more. -/
structure IsRounded (x : ℚ) (a : Decimal) : Prop where
  coefficient_eq : a.coefficient = roundEven (x * 10 ^ a.scale)
  lt_limit : a.coefficient < limit
  scale_le : a.scale ≤ maxScale
  maximal : a.value = x ∨ a.scale = maxScale ∨ limit ≤ roundEven (x * 10 ^ (a.scale + 1))

variable {a b c : Decimal} {x y : ℚ}

theorem value_mul_pow (a : Decimal) : a.value * 10 ^ a.scale = a.coefficient :=
  div_mul_cancel₀ _ (by positivity)

theorem value_nonneg (ha : 0 ≤ a.coefficient) : 0 ≤ a.value :=
  div_nonneg (by exact_mod_cast ha) (by positivity)

theorem value_ofInt (n : ℤ) : (ofInt n).value = n := by
  unfold value ofInt
  rw [pow_zero, div_one]

theorem value_zero : zero.value = 0 := value_ofInt 0

theorem IsRounded.isAmount (h : IsRounded x a) : a.IsAmount :=
  ⟨h.coefficient_eq ▸ Int.natCast_nonneg _, h.lt_limit, h.scale_le⟩

theorem IsAmount.isRounded (h : a.IsAmount) : IsRounded a.value a := by
  refine ⟨?_, h.lt_limit, h.scale_le, .inl rfl⟩
  obtain ⟨n, hn⟩ := Int.eq_ofNat_of_zero_le h.nonneg
  rw [value_mul_pow, hn, Int.cast_natCast, roundEven_natCast]

theorem value_le_iff : a.value ≤ x ↔ (a.coefficient : ℚ) ≤ x * 10 ^ a.scale :=
  div_le_iff₀ (by positivity)

theorem le_value_iff : x ≤ a.value ↔ x * 10 ^ a.scale ≤ a.coefficient :=
  le_div_iff₀ (by positivity)

/-- A value with so many decimals is a whole number of places at every finer scale. -/
theorem exists_value_mul_pow {s : ℕ} (ha : 0 ≤ a.coefficient) (h : a.scale ≤ s) :
    ∃ n : ℕ, a.value * 10 ^ s = n := by
  obtain ⟨n, hn⟩ := Int.eq_ofNat_of_zero_le ha
  refine ⟨n * 10 ^ (s - a.scale), ?_⟩
  have hpow : (10 : ℚ) ^ s = 10 ^ a.scale * 10 ^ (s - a.scale) := by
    rw [← pow_add, Nat.add_sub_cancel' h]
  rw [hpow, ← mul_assoc, value_mul_pow, hn]
  push_cast
  rfl

/-- A further decimal that does not fit leaves a coefficient above a tenth of the bound. -/
private theorem IsRounded.le_value_of_full (hb : IsRounded y b) (hy : 0 ≤ y)
    (h : limit ≤ roundEven (y * 10 ^ (b.scale + 1))) :
    (limit : ℚ) / 10 ^ (b.scale + 1) ≤ b.value := by
  have hhalf : ((limit - 1 : ℕ) : ℚ) + 1 / 2 ≤ y * 10 ^ (b.scale + 1) :=
    le_of_lt_roundEven (by positivity) (Nat.lt_of_lt_of_le (by decide) h)
  have hlimit : (limit : ℚ) = 10 * (limit / 10 : ℕ) + 6 ∧ ((limit - 1 : ℕ) : ℚ) = limit - 1 := by
    norm_num [limit]
  have htenth : limit / 10 < roundEven (y * 10 ^ b.scale) := by
    rw [← not_le, roundEven_le_iff (by positivity), not_or, not_lt, not_and_or]
    rw [pow_succ] at hhalf
    exact ⟨by linarith, .inl (by linarith)⟩
  have hcoefficient : ((limit / 10 : ℕ) : ℚ) + 1 ≤ b.coefficient := by
    rw [hb.coefficient_eq, Int.cast_natCast, ← Nat.cast_succ, Nat.cast_le]
    exact htenth
  rw [le_value_iff, pow_succ, div_mul_eq_mul_div, div_le_iff₀ (by positivity)]
  nlinarith [pow_pos (show (0 : ℚ) < 10 by norm_num) b.scale]

/-- The rounded decimal of a larger value is not smaller. -/
theorem IsRounded.value_le_value (ha : IsRounded x a) (hb : IsRounded y b) (hx : 0 ≤ x)
    (hxy : x ≤ y) : a.value ≤ b.value := by
  have hy : 0 ≤ y := hx.trans hxy
  have hscaled {s t : ℕ} (h : s ≤ t) : x * 10 ^ s ≤ y * 10 ^ t :=
    mul_le_mul hxy (pow_le_pow_right₀ (by norm_num) h) (by positivity) hy
  rcases Nat.lt_trichotomy a.scale b.scale with hlt | heq | hlt
  · -- The larger value has more decimals, so the smaller one has all that it needs.
    have hexact : a.value = x := by
      rcases ha.maximal with hexact | hfull | hnext
      · exact hexact
      · have := hb.scale_le
        omega
      · have := roundEven_mono (by positivity) (hscaled (Nat.succ_le_of_lt hlt))
        rw [Nat.succ_eq_add_one] at this
        have := hb.coefficient_eq
        have := hb.lt_limit
        omega
    obtain ⟨n, hn⟩ := exists_value_mul_pow ha.isAmount.nonneg hlt.le
    have hle : n ≤ roundEven (y * 10 ^ b.scale) := by
      apply natCast_le_roundEven
      rw [← hn, hexact]
      exact hscaled le_rfl
    rw [le_value_iff, hn, hb.coefficient_eq]
    exact_mod_cast hle
  · have hle : roundEven (x * 10 ^ a.scale) ≤ roundEven (y * 10 ^ b.scale) :=
      roundEven_mono (by positivity) (hscaled heq.le)
    rw [le_value_iff, ← heq, value_mul_pow, ha.coefficient_eq, hb.coefficient_eq]
    exact_mod_cast hle
  · -- The larger value has fewer decimals: it needs no more, or the next one does not fit.
    rcases hb.maximal with hexact | hfull | hnext
    · obtain ⟨n, hn⟩ := exists_value_mul_pow hb.isAmount.nonneg hlt.le
      have hle : roundEven (x * 10 ^ a.scale) ≤ n := by
        apply roundEven_le_natCast (by positivity)
        rw [← hn, hexact]
        exact hscaled le_rfl
      rw [value_le_iff, hn, ha.coefficient_eq]
      exact_mod_cast hle
    · have := ha.scale_le
      omega
    · have hcoefficient : (a.coefficient : ℚ) ≤ limit := by exact_mod_cast ha.lt_limit.le
      calc a.value ≤ limit / 10 ^ a.scale := div_le_div_of_nonneg_right hcoefficient (by positivity)
        _ ≤ limit / 10 ^ (b.scale + 1) :=
          div_le_div_of_nonneg_left (by positivity) (by positivity)
            (pow_le_pow_right₀ (by norm_num) hlt)
        _ ≤ b.value := hb.le_value_of_full hy hnext

/-! ### Results that are rounded -/

theorem withSign_natCast {n m : ℕ} (h : n = 0 → m = 0) : withSign n m = m := by
  unfold withSign
  rcases Nat.eq_zero_or_pos n with rfl | hn
  · rw [h rfl, Nat.cast_zero, mul_zero]
  · rw [Int.sign_eq_one_of_pos (by exact_mod_cast hn), one_mul]

/-- As few decimals are cut off as there is room for. -/
theorem fit?_eq_some_iff {n s : ℕ} :
    fit? n s = some a ↔ ∃ k ≤ s, a = ⟨divideToEven n (tenTo k), s - k⟩ ∧ s - k ≤ maxScale ∧
      divideToEven n (tenTo k) < limit ∧
      ∀ j < k, s - j ≤ maxScale → limit ≤ divideToEven n (tenTo j) := by
  have hsign (k : ℕ) : withSign n (divideToEven n (tenTo k)) = divideToEven n (tenTo k) :=
    withSign_natCast fun hn ↦ by rw [hn, divideToEven_zero]
  simp only [fit?, Option.map_eq_some_iff, List.find?_range_eq_some, Int.natAbs_natCast, hsign,
    Bool.and_eq_true, decide_eq_true_eq, List.mem_range, Bool.not_eq_true', Bool.and_eq_false_imp,
    decide_eq_false_iff_not, not_lt, Nat.lt_succ_iff]
  constructor
  · rintro ⟨k, ⟨⟨hscale, hlt⟩, hk, hleast⟩, rfl⟩
    exact ⟨k, hk, rfl, hscale, hlt, hleast⟩
  · rintro ⟨k, hk, rfl, hscale, hlt, hleast⟩
    exact ⟨k, ⟨⟨hscale, hlt⟩, hk, hleast⟩, rfl⟩

/-- Cutting decimals off rounds the value at what is left of the scale. -/
theorem divideToEven_tenTo {n s k : ℕ} (hk : k ≤ s) :
    divideToEven n (tenTo k) = roundEven ((n : ℚ) / 10 ^ s * 10 ^ (s - k)) := by
  have hpow : (10 : ℚ) ^ s = 10 ^ (s - k) * 10 ^ k := by
    rw [← pow_add, Nat.sub_add_cancel hk]
  have hvalue : (n : ℚ) / 10 ^ s * 10 ^ (s - k) = n / (tenTo k : ℕ) := by
    rw [hpow, Binary64.cast_tenTo]
    field_simp
  rw [hvalue]
  exact divideToEven_eq_roundEven (Nat.pow_pos (by decide))

theorem isRounded_fit? {n s : ℕ} (h : fit? n s = some a) : IsRounded (n / 10 ^ s) a := by
  obtain ⟨k, hk, rfl, hscale, hlt, hleast⟩ := fit?_eq_some_iff.1 h
  refine ⟨congrArg Nat.cast (divideToEven_tenTo hk), Int.ofNat_lt.2 hlt, hscale, ?_⟩
  cases k with
  | zero =>
    left
    change (((divideToEven n 1 : ℕ) : ℤ) : ℚ) / 10 ^ s = n / 10 ^ s
    rw [divideToEven_one, Int.cast_natCast]
  | succ k =>
    right
    rcases Nat.lt_or_ge maxScale (s - k) with hfull | hroom
    · left
      change s - (k + 1) = maxScale
      change s - (k + 1) ≤ maxScale at hscale
      omega
    · right
      change limit ≤ roundEven (n / 10 ^ s * 10 ^ (s - (k + 1) + 1))
      rw [show s - (k + 1) + 1 = s - k by omega, ← divideToEven_tenTo (by omega)]
      exact hleast k (Nat.lt_succ_self k) hroom

/-- Only the whole part can be too large. -/
theorem exists_fit?_iff {n s : ℕ} :
    (∃ a, fit? n s = some a) ↔ roundEven ((n : ℚ) / 10 ^ s) < limit := by
  rw [← Option.isSome_iff_exists]
  simp only [fit?, Option.isSome_map, List.find?_isSome, List.mem_range, Nat.lt_succ_iff,
    Int.natAbs_natCast, Bool.and_eq_true, decide_eq_true_eq]
  constructor
  · rintro ⟨k, hk, -, hlt⟩
    rw [divideToEven_tenTo hk] at hlt
    refine (roundEven_mono (by positivity) ?_).trans_lt hlt
    exact le_mul_of_one_le_right (by positivity) (one_le_pow₀ (by norm_num))
  · intro h
    refine ⟨s, le_rfl, by rw [Nat.sub_self]; exact Nat.zero_le _, ?_⟩
    rwa [divideToEven_tenTo le_rfl, Nat.sub_self, pow_zero, mul_one]

theorem fit?_eq_of_lt {n s : ℕ} (hn : n < limit) (hs : s ≤ maxScale) :
    fit? n s = some ⟨n, s⟩ := by
  have hwhole : divideToEven n (tenTo 0) = n := divideToEven_one n
  exact fit?_eq_some_iff.2 ⟨0, Nat.zero_le s, by rw [hwhole]; rfl, hs, by rwa [hwhole], nofun⟩

/-! ### Products, sums and differences -/

theorem mul?_eq_fit? (ha : 0 ≤ a.coefficient) (hb : 0 ≤ b.coefficient) :
    a.value * b.value = 0 ∧ a.mul? b = some zero ∨
      ∃ n s : ℕ, a.value * b.value = n / 10 ^ s ∧ a.mul? b = fit? n s := by
  unfold mul?
  by_cases hzero : (a.isZero || b.isZero) = true
  · left
    rw [if_pos hzero]
    refine ⟨?_, rfl⟩
    rw [Bool.or_eq_true, isZero, isZero, decide_eq_true_eq, decide_eq_true_eq] at hzero
    rcases hzero with h | h
    · simp [value, h]
    · simp [value, h]
  · right
    rw [if_neg hzero]
    obtain ⟨n, hn⟩ := Int.eq_ofNat_of_zero_le ha
    obtain ⟨m, hm⟩ := Int.eq_ofNat_of_zero_le hb
    refine ⟨n * m, a.scale + b.scale, ?_, by rw [hn, hm, Nat.cast_mul]⟩
    rw [value, value, hn, hm, div_mul_div_comm, pow_add]
    push_cast
    rfl

theorem isRounded_zero : IsRounded 0 zero :=
  value_zero ▸ IsAmount.isRounded ⟨by decide, by decide, by decide⟩

theorem isRounded_mul? (ha : 0 ≤ a.coefficient) (hb : 0 ≤ b.coefficient) (h : a.mul? b = some c) :
    IsRounded (a.value * b.value) c := by
  rcases mul?_eq_fit? ha hb with ⟨hvalue, hmul⟩ | ⟨n, s, hvalue, hmul⟩
  · rw [hmul, Option.some.injEq] at h
    rw [hvalue, ← h]
    exact isRounded_zero
  · rw [hvalue]
    exact isRounded_fit? (hmul ▸ h)

theorem exists_mul?_iff (ha : 0 ≤ a.coefficient) (hb : 0 ≤ b.coefficient) :
    (∃ c, a.mul? b = some c) ↔ roundEven (a.value * b.value) < limit := by
  rcases mul?_eq_fit? ha hb with ⟨hvalue, hmul⟩ | ⟨n, s, hvalue, hmul⟩
  · rw [hvalue, hmul, ← Nat.cast_zero, roundEven_natCast]
    exact iff_of_true ⟨zero, rfl⟩ (by decide)
  · rw [hvalue, hmul, exists_fit?_iff]

theorem value_eq_scaled {s : ℕ} (h : a.scale ≤ s) :
    a.value = (a.coefficient * tenTo (s - a.scale) : ℤ) / 10 ^ s := by
  have hpow : (10 : ℚ) ^ s = 10 ^ a.scale * 10 ^ (s - a.scale) := by
    rw [← pow_add, Nat.add_sub_cancel' h]
  rw [hpow, value, Int.cast_mul, Int.cast_natCast, Binary64.cast_tenTo]
  field_simp

/-- A sum is one of the operands, or the sum at the larger scale as far as that fits. -/
theorem add?_eq_fit? (ha : a.IsAmount) (hb : b.IsAmount) :
    a.value = 0 ∧ a.add? b = some b ∨ b.value = 0 ∧ a.add? b = some a ∨
      ∃ n : ℕ, a.coefficient * tenTo (max a.scale b.scale - a.scale) +
          b.coefficient * tenTo (max a.scale b.scale - b.scale) = n ∧
        a.value + b.value = n / 10 ^ max a.scale b.scale ∧
        a.add? b = fit? n (max a.scale b.scale) := by
  unfold add? isZero
  simp only [decide_eq_true_eq]
  by_cases hazero : a.coefficient = 0
  · exact .inl ⟨by simp [value, hazero], if_pos hazero⟩
  rw [if_neg hazero]
  by_cases hbzero : b.coefficient = 0
  · exact .inr (.inl ⟨by simp [value, hbzero], if_pos hbzero⟩)
  rw [if_neg hbzero]
  have hsum : 0 ≤ a.coefficient * tenTo (max a.scale b.scale - a.scale) +
      b.coefficient * tenTo (max a.scale b.scale - b.scale) :=
    Int.add_nonneg (Int.mul_nonneg ha.nonneg (Int.natCast_nonneg _))
      (Int.mul_nonneg hb.nonneg (Int.natCast_nonneg _))
  obtain ⟨n, hn⟩ := Int.eq_ofNat_of_zero_le hsum
  refine .inr (.inr ⟨n, hn, ?_, by rw [hn]⟩)
  rw [value_eq_scaled (Nat.le_max_left a.scale b.scale),
    value_eq_scaled (Nat.le_max_right a.scale b.scale), ← add_div, ← Int.cast_add, hn,
    Int.cast_natCast]

theorem isRounded_add? (ha : a.IsAmount) (hb : b.IsAmount) (h : a.add? b = some c) :
    IsRounded (a.value + b.value) c := by
  rcases add?_eq_fit? ha hb with ⟨hvalue, hadd⟩ | ⟨hvalue, hadd⟩ | ⟨n, -, hvalue, hadd⟩
  · obtain rfl := Option.some.inj (hadd.symm.trans h)
    rw [hvalue, zero_add]
    exact hb.isRounded
  · obtain rfl := Option.some.inj (hadd.symm.trans h)
    rw [hvalue, add_zero]
    exact ha.isRounded
  · rw [hvalue]
    exact isRounded_fit? (hadd ▸ h)

/-- A sum is exact if it has no decimals, or fits with all that it has. -/
theorem value_add? (ha : a.IsAmount) (hb : b.IsAmount) (h : a.add? b = some c)
    (hfits : max a.scale b.scale = 0 ∨
      a.coefficient * tenTo (max a.scale b.scale - a.scale) +
        b.coefficient * tenTo (max a.scale b.scale - b.scale) < limit) :
    c.value = a.value + b.value := by
  rcases add?_eq_fit? ha hb with ⟨hvalue, hadd⟩ | ⟨hvalue, hadd⟩ | ⟨n, hn, hvalue, hadd⟩
  · rw [← Option.some.inj (hadd.symm.trans h), hvalue, zero_add]
  · rw [← Option.some.inj (hadd.symm.trans h), hvalue, add_zero]
  · rw [hadd] at h
    have hc : c = ⟨n, max a.scale b.scale⟩ := by
      rcases hfits with hwhole | hlt
      · rw [hwhole] at h ⊢
        obtain ⟨k, hk, hc, -⟩ := fit?_eq_some_iff.1 h
        obtain rfl := Nat.le_zero.1 hk
        rw [hc]
        exact congrArg (Decimal.mk · 0) (congrArg Nat.cast (divideToEven_one n))
      · rw [hn] at hlt
        have hscale := Nat.max_le.2 ⟨ha.scale_le, hb.scale_le⟩
        exact Option.some.inj (h.symm.trans (fit?_eq_of_lt (Int.ofNat_lt.1 hlt) hscale))
    rw [hvalue, hc, value, Int.cast_natCast]

/-- Whole numbers are added exactly. -/
theorem add?_ofInt {m n : ℕ} (h : m + n < limit) :
    (ofInt m).add? (ofInt n) = some (ofInt (m + n : ℕ)) := by
  have hunit : tenTo 0 = 1 := rfl
  unfold add? isZero ofInt
  rcases Nat.eq_zero_or_pos m with rfl | hm
  · simp
  rcases Nat.eq_zero_or_pos n with rfl | hn
  · simp [hm.ne']
  · simp only [Nat.cast_eq_zero, hm.ne', hn.ne', decide_false, Bool.false_eq_true, if_false,
      max_self, Nat.sub_self, hunit, Nat.cast_one, mul_one]
    exact fit?_eq_of_lt h (Nat.zero_le _)

/-- What is left of one after a part of it is exact. -/
theorem exists_sub?_of_value_le_one (hb : b.IsAmount) (h : b.value ≤ 1) :
    ∃ c, (ofInt 1).sub? b = some c ∧ c.IsAmount ∧ c.value = 1 - b.value := by
  obtain ⟨n, hn⟩ := Int.eq_ofNat_of_zero_le hb.nonneg
  have hle : n ≤ 10 ^ b.scale := by
    rw [value_le_iff, one_mul, hn] at h
    exact_mod_cast h
  have hlimit : 10 ^ b.scale - n < limit := by
    have hpow : 10 ^ b.scale ≤ 10 ^ maxScale := Nat.pow_le_pow_right (by decide) hb.scale_le
    exact Nat.lt_of_le_of_lt ((Nat.sub_le _ _).trans hpow) (by decide)
  by_cases hzero : n = 0
  · refine ⟨ofInt 1, ?_, ⟨by decide, by decide, by decide⟩, ?_⟩
    · simp [sub?, add?, isZero, neg, ofInt, hn, hzero]
    · simp [value, ofInt, hn, hzero]
  · have hsub : (ofInt 1).sub? b = fit? (10 ^ b.scale - n : ℕ) b.scale := by
      have hrest : (1 * tenTo b.scale + -(n : ℤ) * tenTo 0 : ℤ) = (10 ^ b.scale - n : ℕ) := by
        rw [Nat.cast_sub hle]
        simp [sub_eq_add_neg]
      have hone : ¬ (ofInt 1).coefficient = 0 := by decide
      have hpart : ¬ -(n : ℤ) = 0 := by omega
      simp only [sub?, add?, isZero, neg, hn, hone, hpart, decide_false, Bool.false_eq_true,
        if_false]
      simp only [ofInt, Nat.zero_max, Nat.sub_zero, Nat.sub_self, hrest]
    refine ⟨⟨(10 ^ b.scale - n : ℕ), b.scale⟩, hsub.trans (fit?_eq_of_lt hlimit hb.scale_le),
      ⟨Int.natCast_nonneg _, Int.ofNat_lt.2 hlimit, hb.scale_le⟩, ?_⟩
    simp only [value, hn, Int.cast_natCast, Nat.cast_sub hle]
    push_cast
    field_simp

end Decimal

end Ventilation
