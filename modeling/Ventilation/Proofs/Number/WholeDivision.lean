import Ventilation.Proofs.Number.Operations

/-!
# Quotients of whole numbers

A quotient of whole numbers that is not whole itself is at least a unit of its divisor away from
every whole number, and rounding moves it by less. So its floor is that of the exact quotient,
`value?_floor_div`, and what it leaves of the dividend is exact, `value?_sub_mul_floor_div`.
-/

set_option autoImplicit false
set_option relaxedAutoImplicit false

namespace Ventilation.Binary64

variable {a b : ℤ}

/-- What a quotient has beyond a whole number is a fraction with the same divisor. -/
theorem div_sub_intCast (hb : b ≠ 0) (m : ℤ) : (a : ℚ) / b - m = (a - b * m : ℤ) / b := by
  have hb' : (b : ℚ) ≠ 0 := by exact_mod_cast hb
  push_cast
  rw [sub_div, mul_div_cancel_left₀ _ hb']

theorem one_div_le_abs_sub {m : ℤ} (hb : b ≠ 0) (h : (m : ℚ) ≠ a / b) :
    1 / |(b : ℚ)| ≤ |(a : ℚ) / b - m| := by
  have hrest : a - b * m ≠ 0 := by
    intro hzero
    have hscaled := div_sub_intCast (a := a) hb m
    rw [hzero, Int.cast_zero, zero_div, sub_eq_zero] at hscaled
    exact h hscaled.symm
  rw [div_sub_intCast hb, abs_div]
  refine div_le_div_of_nonneg_right ?_ (abs_nonneg _)
  exact_mod_cast Int.one_le_abs hrest

/-- A value that close to a quotient has no whole number in between. -/
theorem floor_eq_of_abs_sub_lt (hb : b ≠ 0) (hfraction : (⌊(a : ℚ) / b⌋ : ℚ) ≠ a / b) {w : ℚ}
    (h : |w - a / b| < 1 / |(b : ℚ)|) : ⌊w⌋ = ⌊(a : ℚ) / b⌋ := by
  have hlow := Int.floor_le ((a : ℚ) / b)
  have hhigh := Int.lt_floor_add_one ((a : ℚ) / b)
  have hbelow := one_div_le_abs_sub hb hfraction
  have habove : 1 / |(b : ℚ)| ≤ |(a : ℚ) / b - (⌊(a : ℚ) / b⌋ + 1 : ℤ)| :=
    one_div_le_abs_sub hb (by push_cast; exact hhigh.ne')
  rw [abs_of_nonneg (sub_nonneg.2 hlow)] at hbelow
  rw [Int.cast_add, Int.cast_one, abs_of_neg (sub_neg.2 hhigh)] at habove
  obtain ⟨hleft, hright⟩ := abs_lt.1 h
  rw [Int.floor_eq_iff]
  constructor <;> linarith

theorem natAbs_floor_div_le (hb : b ≠ 0) (hwhole : (⌊(a : ℚ) / b⌋ : ℚ) = a / b) :
    ⌊(a : ℚ) / b⌋.natAbs ≤ a.natAbs := by
  have hproduct : ⌊(a : ℚ) / b⌋ * b = a := by
    rw [eq_div_iff (by exact_mod_cast hb)] at hwhole
    exact_mod_cast hwhole
  calc ⌊(a : ℚ) / b⌋.natAbs ≤ ⌊(a : ℚ) / b⌋.natAbs * b.natAbs :=
        Nat.le_mul_of_pos_right _ (Int.natAbs_pos.2 hb)
    _ = a.natAbs := by rw [← Int.natAbs_mul, hproduct]

theorem natAbs_sub_mul_floor_div_lt (a : ℤ) (hb : b ≠ 0) :
    (a - b * ⌊(a : ℚ) / b⌋).natAbs < b.natAbs := by
  have hb' : (b : ℚ) ≠ 0 := by exact_mod_cast hb
  have hfract : |(a : ℚ) / b - ⌊(a : ℚ) / b⌋| < 1 := by
    rw [abs_of_nonneg (Int.fract_nonneg _)]
    exact Int.fract_lt_one _
  rw [div_sub_intCast hb, abs_div, div_lt_one (abs_pos.2 hb')] at hfract
  rw [← Int.ofNat_lt, ← Int.abs_eq_natAbs, ← Int.abs_eq_natAbs]
  exact_mod_cast hfract

/-- Quotients of whole numbers stay away from the least and the greatest exponents. -/
theorem log_div_bounds {m k : ℕ} (hm : 0 < m) (hmlt : m < 2 ^ 53) (hk : 0 < k) (hkle : k ≤ 2 ^ 53) :
    -53 ≤ Int.log 2 ((m : ℚ) / k) ∧ Int.log 2 ((m : ℚ) / k) < 53 := by
  have hm' : (1 : ℚ) ≤ m := by exact_mod_cast hm
  have hk' : (1 : ℚ) ≤ k := by exact_mod_cast hk
  have hpos : (0 : ℚ) < m / k := by positivity
  constructor
  · have hlow : (2 : ℚ) ^ (-53 : ℤ) ≤ m / k := by
      rw [zpow_neg, ← one_div]
      exact div_le_div₀ (by positivity) hm' (by positivity) (by exact_mod_cast hkle)
    exact (Int.zpow_le_iff_le_log one_lt_two hpos).1 hlow
  · have hhigh : (m : ℚ) / k < 2 ^ (53 : ℤ) :=
      (div_le_self (by positivity) hk').trans_lt (by exact_mod_cast hmlt)
    exact (Int.lt_zpow_iff_log_lt one_lt_two hpos).1 hhigh

variable {x y : Float}

/-- Rounding moves a quotient by less than a unit of its divisor. -/
theorem exists_value?_div_near (hx : value? x = some (a : ℚ)) (hy : value? y = some (b : ℚ))
    (ha : 0 < a.natAbs) (hdividend : a.natAbs < 2 ^ 53) (hb : 0 < b.natAbs)
    (hdivisor : b.natAbs ≤ 2 ^ 53) :
    ∃ w : ℚ, value? (x / y) = some w ∧ |w - a / b| < 1 / |(b : ℚ)| := by
  obtain ⟨negative, n, d, hd, hvalue, hnearest⟩ :=
    exists_div_eq_nearest hx hy (by exact_mod_cast Int.natAbs_pos.1 hb)
  have hmagnitude : (n : ℚ) / d = a.natAbs / b.natAbs := by
    rw [Nat.cast_natAbs, Nat.cast_natAbs, Int.cast_abs, Int.cast_abs, ← abs_div, hvalue, abs_mul,
      abs_sign, one_mul, abs_of_nonneg (by positivity)]
  have hn : 0 < n := by
    rw [Nat.pos_iff_ne_zero]
    rintro rfl
    rw [Nat.cast_zero, zero_div, eq_comm, div_eq_zero_iff, Nat.cast_eq_zero, Nat.cast_eq_zero]
      at hmagnitude
    omega
  obtain ⟨hleast, hmost⟩ := log_div_bounds ha hdividend hb hdivisor
  rw [← hmagnitude] at hleast hmost
  obtain ⟨r, hr, herror⟩ := exists_value?_nearest_near negative hn hd (by omega) (by omega)
  refine ⟨_, hnearest ▸ hr, ?_⟩
  have hdividend' : (a.natAbs : ℚ) < 2 ^ 53 := by exact_mod_cast hdividend
  have hpos : (0 : ℚ) < b.natAbs := by exact_mod_cast hb
  calc |(bif negative then -1 else 1) * r - (a : ℚ) / b| = |r - n / d| := by
        rw [hvalue, ← mul_sub, abs_mul, abs_sign, one_mul]
    _ ≤ a.natAbs / b.natAbs / 2 ^ 53 := hmagnitude ▸ herror
    _ = a.natAbs / 2 ^ 53 / b.natAbs := div_right_comm _ _ _
    _ < 1 / b.natAbs := div_lt_div_of_pos_right ((div_lt_one (by positivity)).2 hdividend') hpos
    _ = 1 / |(b : ℚ)| := by rw [Nat.cast_natAbs, Int.cast_abs]

theorem value?_floor_div (hx : value? x = some (a : ℚ)) (hy : value? y = some (b : ℚ)) (hb : b ≠ 0)
    (hdividend : a.natAbs < 2 ^ 53) (hdivisor : b.natAbs ≤ 2 ^ 53) :
    value? (floor (x / y)) = some (⌊(a : ℚ) / b⌋ : ℚ) := by
  by_cases hwhole : (⌊(a : ℚ) / b⌋ : ℚ) = a / b
  · refine value?_floor (value?_div hx hy (by exact_mod_cast hb) ?_)
    rw [← hwhole]
    exact isRepresentable_intCast ((natAbs_floor_div_le hb hwhole).trans_lt hdividend)
  · have ha : 0 < a.natAbs := by
      rw [Int.natAbs_pos]
      rintro rfl
      simp at hwhole
    obtain ⟨w, hw, hnear⟩ :=
      exists_value?_div_near hx hy ha hdividend (Int.natAbs_pos.2 hb) hdivisor
    rw [← floor_eq_of_abs_sub_lt hb hwhole hnear]
    exact value?_floor hw

/-- A dividend and a divisor that are 2 ^ 53 at most together leave room for the multiple between
them. -/
theorem value?_sub_mul_floor_div (hx : value? x = some (a : ℚ)) (hy : value? y = some (b : ℚ))
    (hb : b ≠ 0) (hsmall : a.natAbs + b.natAbs ≤ 2 ^ 53) :
    value? (x - y * floor (x / y)) = some ((a : ℚ) - b * ⌊(a : ℚ) / b⌋) := by
  have hdivisor := Int.natAbs_pos.2 hb
  have hrest := natAbs_sub_mul_floor_div_lt a hb
  have hfloor := value?_floor_div hx hy hb (by omega) (by omega)
  refine value?_sub hx (value?_mul hy hfloor ?_) ?_
  · exact_mod_cast isRepresentable_intCast (k := b * ⌊(a : ℚ) / b⌋) (by omega)
  · exact_mod_cast isRepresentable_intCast (k := a - b * ⌊(a : ℚ) / b⌋) (by omega)

end Ventilation.Binary64
