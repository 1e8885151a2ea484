import Ventilation.Proofs.Number.Arithmetic

/-!
# The range of numbers

A value from `overflow` on is rounded to infinity, and a smaller one to a finite number:
`isCapped_nearest`. So it is for the decimals that are read, `isCapped_ofDecimal`, and for exact
products and quotients of finite numbers, `isCapped_mul` and `isCapped_div`.
-/

set_option autoImplicit false
set_option relaxedAutoImplicit false

namespace Ventilation.Binary64

open Float.Model

/-- The least value that is rounded to infinity, half a place above the largest number. -/
def overflow : ℚ := 2 ^ 1024 - 2 ^ 970

theorem overflow_eq : overflow = (2 ^ 53 - 1 / 2) * 2 ^ (971 : ℤ) := by
  have hhigh : (2 : ℚ) ^ 1024 = 2 ^ 53 * 2 ^ 971 := by rw [← pow_add]
  have hunit : (2 : ℚ) ^ 971 = 2 ^ 970 * 2 := pow_succ 2 970
  have hzpow : (2 : ℚ) ^ (971 : ℤ) = 2 ^ 971 := zpow_natCast 2 971
  unfold overflow
  rw [hzpow, hhigh, hunit]
  generalize (2 : ℚ) ^ 970 = half
  ring

theorem two_zpow_le_overflow : 2 ^ (1023 : ℤ) ≤ overflow := by
  have hzpow : (2 : ℚ) ^ (1023 : ℤ) = 2 ^ (52 : ℤ) * 2 ^ (971 : ℤ) := by
    rw [← zpow_add₀ two_ne_zero]
    rfl
  rw [overflow_eq, hzpow]
  exact mul_le_mul_of_nonneg_right (by norm_num) (by positivity)

theorem overflow_le_two_zpow : overflow ≤ 2 ^ (1024 : ℤ) := by
  have hzpow : (2 : ℚ) ^ (1024 : ℤ) = 2 ^ (53 : ℤ) * 2 ^ (971 : ℤ) := by
    rw [← zpow_add₀ two_ne_zero]
    rfl
  rw [overflow_eq, hzpow]
  exact mul_le_mul_of_nonneg_right (by norm_num) (by positivity)

theorem overflow_pos : 0 < overflow :=
  lt_of_lt_of_le (by positivity) two_zpow_le_overflow

/-- What a value becomes that is not negative: infinity from `overflow` on, else a finite number
without a sign. -/
def IsCapped (q : ℚ) (x : Float) : Prop := if overflow ≤ q then x = infinity else IsUnsigned x

variable {x y : Float} {q : ℚ} {m : ℕ} {e : ℤ}

theorem parts_infinity : parts infinity = .infinite false := by decide +kernel

theorem eq_infinity_of_parts (h : parts x = .infinite false) : x = infinity :=
  parts_inj (by rw [h]; simp) (h.trans parts_infinity.symm)

theorem IsUnsigned.ne_infinity (h : IsUnsigned x) : x ≠ infinity := by
  rintro rfl
  obtain ⟨m, e, hparts⟩ := h.exists_parts
  rw [parts_infinity] at hparts
  cases hparts

theorem IsCapped.eq_infinity_iff (h : IsCapped q x) : x = infinity ↔ overflow ≤ q := by
  unfold IsCapped at h
  split at h
  · exact iff_of_true h ‹_›
  · exact iff_of_false h.ne_infinity ‹_›

theorem IsCapped.isUnsigned (h : IsCapped q x) (hq : q < overflow) : IsUnsigned x := by
  unfold IsCapped at h
  rwa [if_neg (not_le.2 hq)] at h

theorem IsCapped.eq_infinity_or_isUnsigned (h : IsCapped q x) : x = infinity ∨ IsUnsigned x :=
  (le_or_gt overflow q).imp h.eq_infinity_iff.2 h.isUnsigned

/-! ### Values of numbers -/

theorem rational_nonneg_of_isUnsigned (h : IsUnsigned x) : 0 ≤ rational x := by
  obtain ⟨m, e, hparts⟩ := h.exists_parts
  rw [rational_of_parts hparts]
  positivity

/-- A finite number lies below the threshold. -/
theorem rational_lt_overflow (h : IsUnsigned x) : rational x < overflow := by
  obtain ⟨m, e, hparts⟩ := h.exists_parts
  obtain ⟨hm, -, he, -⟩ : (Parts.finite false m e).IsCanonical := hparts ▸ isCanonical_parts x
  have hm' : (m : ℚ) + 1 ≤ 2 ^ 53 := by exact_mod_cast hm
  rw [rational_of_parts hparts, overflow_eq]
  calc (m : ℚ) * 2 ^ e ≤ m * 2 ^ (971 : ℤ) :=
        mul_le_mul_of_nonneg_left (zpow_le_zpow_right₀ one_le_two he) (Nat.cast_nonneg m)
    _ < (2 ^ 53 - 1 / 2) * 2 ^ (971 : ℤ) :=
        mul_lt_mul_of_pos_right (by linarith) (by positivity)

/-! ### Rounding -/

theorem isUnsigned_ofParts (hm : m ≤ 2 ^ 53) (hleast : leastExponent ≤ e)
    (hnormal : 2 ^ 52 ≤ m ∨ e = leastExponent) (he : e ≤ 970 ∨ e = 971 ∧ m < 2 ^ 53) :
    IsUnsigned (ofParts false m e) := by
  obtain ⟨k, f, hparts, -⟩ := exists_parts_ofParts false hm hleast hnormal he
  exact isUnsigned_of_parts hparts

theorem ofParts_eq_infinity (hm : 2 ^ 52 ≤ m) (he : 972 ≤ e ∨ e = 971 ∧ m = 2 ^ 53) :
    ofParts false m e = infinity := by
  have hmagnitude :
      min ((e - leastExponent).toNat * twoTo 52 + m) (2047 * twoTo 52) = 2047 * twoTo 52 := by
    unfold leastExponent
    change min (_ * 2 ^ 52 + m) (2047 * 2 ^ 52) = 2047 * 2 ^ 52
    omega
  unfold infinity
  unfold ofParts
  rw [hmagnitude]
  rfl

/-- At the greatest exponent of finite numbers the mantissa is carried from half a place below
2 ^ 53 on: 2 ^ 53 - 1 is odd. -/
theorem overflow_le_iff_carried (hq : 0 ≤ q) (h : roundEven (q / 2 ^ (971 : ℤ)) ≤ 2 ^ 53) :
    overflow ≤ q ↔ roundEven (q / 2 ^ (971 : ℤ)) = 2 ^ 53 := by
  have hunit : (0 : ℚ) < 2 ^ (971 : ℤ) := by positivity
  have hcarried : roundEven (q / 2 ^ (971 : ℤ)) = 2 ^ 53 ↔
      ¬ roundEven (q / 2 ^ (971 : ℤ)) ≤ 2 ^ 53 - 1 := by
    omega
  have hodd : ¬ (2 ^ 53 - 1) % 2 = 0 := by decide
  rw [hcarried, roundEven_le_iff (by positivity), overflow_eq, ← le_div_iff₀ hunit]
  simp only [hodd, and_false, or_false, not_lt]
  norm_num

theorem isCapped_ofParts (hq : 0 < q) (h : max (Int.log 2 q - 52) leastExponent = e) :
    IsCapped q (ofParts false (roundEven (q / 2 ^ e)) e) := by
  obtain ⟨hcarried, hleast, hnormal⟩ := mantissa_bounds hq h
  unfold IsCapped
  rcases lt_trichotomy e 971 with hlt | rfl | hlt
  · have hlog : Int.log 2 q < 1023 := by omega
    rw [← Int.lt_zpow_iff_log_lt one_lt_two hq] at hlog
    rw [if_neg (not_le.2 (hlog.trans_le two_zpow_le_overflow))]
    exact isUnsigned_ofParts hcarried hleast hnormal (.inl (by omega))
  · rw [if_congr (overflow_le_iff_carried hq.le hcarried) rfl rfl]
    split
    · exact ofParts_eq_infinity (by omega) (.inr ⟨rfl, ‹_›⟩)
    · exact isUnsigned_ofParts hcarried hleast hnormal (.inr ⟨rfl, by omega⟩)
  · have hnormal' : e ≠ leastExponent := by
      unfold leastExponent
      omega
    have hlog : 1024 ≤ Int.log 2 q := by omega
    rw [← Int.zpow_le_iff_le_log one_lt_two hq] at hlog
    rw [if_pos (overflow_le_two_zpow.trans hlog)]
    exact ofParts_eq_infinity (hnormal.resolve_right hnormal') (.inl (by omega))

theorem isCapped_zero : IsCapped 0 0 := by
  unfold IsCapped
  rw [if_neg (not_le.2 overflow_pos)]
  exact ⟨by decide +kernel, by decide +kernel⟩

theorem isCapped_nearest {n d : ℕ} (hd : 0 < d) : IsCapped ((n : ℚ) / d) (nearest false n d) := by
  rcases Nat.eq_zero_or_pos n with rfl | hn
  · rw [Nat.cast_zero, zero_div, nearest_zero]
    exact isCapped_zero
  · rw [nearest_eq_roundEven hn hd rfl]
    exact isCapped_ofParts (div_pos (by exact_mod_cast hn) (by exact_mod_cast hd)) rfl

/-! ### Decimals -/

/-- Also the decimals that are settled without their power of ten come out as their values do. -/
theorem isCapped_ofDecimal (d : Scientific) :
    IsCapped d.value (ofDecimal false d.digits d.exponent) := by
  have hzero : ofParts false 0 leastExponent = 0 :=
    parts_inj (by decide +kernel) (by decide +kernel)
  unfold ofDecimal
  split
  · next hsettled =>
    have hsmall : d.value < overflow := by
      rcases hsettled with hdigits | hsmall
      · unfold Scientific.value
        rw [hdigits, Nat.cast_zero, zero_mul]
        exact overflow_pos
      · exact (Scientific.value_lt hsmall).trans_le
          ((zpow_le_zpow_right₀ one_le_two (by decide)).trans two_zpow_le_overflow)
    unfold IsCapped
    rw [if_neg (not_le.2 hsmall), hzero]
    exact isCapped_zero.isUnsigned overflow_pos
  · next hsettled =>
    split
    · next hlarge =>
      have hvalue := Scientific.lt_value (not_or.1 hsettled).1 hlarge
      unfold IsCapped
      rw [if_pos (overflow_le_two_zpow.trans hvalue.le)]
      rfl
    · rw [← cast_div_eq_value]
      exact isCapped_nearest (Nat.pow_pos (by decide))

/-! ### Products and quotients -/

theorem exists_natCast_div_eq (hq : 0 ≤ q) : ∃ n d : ℕ, 0 < d ∧ (n : ℚ) / d = q := by
  refine ⟨q.num.natAbs, q.den, q.den_pos, ?_⟩
  have hnum : ((q.num.natAbs : ℕ) : ℚ) = q.num := by
    rw [← Int.cast_natCast, Int.natAbs_of_nonneg (Rat.num_nonneg.2 hq)]
  rw [hnum, Rat.num_div_den]

theorem isCapped_mul (hx : IsUnsigned x) (hy : IsUnsigned y) :
    IsCapped (rational x * rational y) (x * y) := by
  obtain ⟨n, d, hd, h⟩ := exists_natCast_div_eq (mul_nonneg (rational_nonneg_of_isUnsigned hx)
    (rational_nonneg_of_isUnsigned hy))
  rw [mul_eq_nearest hx hy hd h, ← h]
  exact isCapped_nearest hd

theorem isCapped_div (hx : IsUnsigned x) (hy : IsUnsigned y) (hpos : 0 < rational y) :
    IsCapped (rational x / rational y) (x / y) := by
  obtain ⟨n, d, hd, h⟩ := exists_natCast_div_eq (div_nonneg (rational_nonneg_of_isUnsigned hx)
    (rational_nonneg_of_isUnsigned hy))
  rw [div_eq_nearest hx hy hpos hd h, ← h]
  exact isCapped_nearest hd

/-- A quotient by one or more is finite. -/
theorem isUnsigned_div (hx : IsUnsigned x) (hy : IsUnsigned y) (hle : 1 ≤ rational y) :
    IsUnsigned (x / y) :=
  (isCapped_div hx hy (one_pos.trans_le hle)).isUnsigned
    ((div_le_self (rational_nonneg_of_isUnsigned hx) hle).trans_lt (rational_lt_overflow hx))

/-! ### Whole parts -/

theorem trunc_infinity : trunc infinity = infinity := by
  unfold trunc toWhole
  rw [parts_infinity]

/-- The whole part of a finite number. -/
theorem exists_value?_trunc (hx : IsUnsigned x) :
    ∃ n : ℕ, value? (trunc x) = some (n : ℚ) := by
  obtain ⟨q, hvalue, hq⟩ := hx.exists_value?
  obtain ⟨n, hn⟩ := Int.eq_ofNat_of_zero_le (Int.floor_nonneg.2 hq)
  refine ⟨n, ?_⟩
  rw [value?_trunc_of_nonneg hvalue hq, hn, Int.cast_natCast]

theorem trunc_eq_infinity_iff (h : x = infinity ∨ IsUnsigned x) :
    trunc x = infinity ↔ x = infinity := by
  rcases h with rfl | hx
  · exact iff_of_true trunc_infinity rfl
  · obtain ⟨n, hn⟩ := exists_value?_trunc hx
    refine iff_of_false (fun htrunc ↦ ?_) hx.ne_infinity
    rw [htrunc, value?, parts_infinity] at hn
    cases hn

end Ventilation.Binary64
