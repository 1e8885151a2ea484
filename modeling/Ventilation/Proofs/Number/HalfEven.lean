import Ventilation.Proofs.Number.Value

/-!
# Rounding half to even

A quotient of whole numbers is rounded by its value alone. What a value is rounded to is known by
the whole numbers that it does not exceed, `roundEven_le_iff`, so rounding never turns an order
around, and a whole number is what every value within half of it is rounded to.
-/

set_option autoImplicit false
set_option relaxedAutoImplicit false

namespace Ventilation

theorem divideToEven_le_iff {n d k : ℕ} (hd : 0 < d) :
    divideToEven n d ≤ k ↔ 2 * n < (2 * k + 1) * d ∨ 2 * n = (2 * k + 1) * d ∧ k % 2 = 0 := by
  have hn : d * (n / d) + n % d = n := Nat.div_add_mod n d
  have hrest : n % d < d := Nat.mod_lt n hd
  have hhalf : (2 * k + 1) * d = 2 * (d * k) + d := by ring
  unfold divideToEven
  generalize n / d = q at *
  generalize n % d = r at *
  rw [hhalf]
  rcases Nat.lt_trichotomy q k with h | rfl | h
  · have hstep : d * q + d ≤ d * k := by
      rw [← Nat.mul_succ]
      exact Nat.mul_le_mul_left d h
    exact iff_of_true (by split <;> omega) (.inl (by omega))
  · split <;> omega
  · have hstep : d * k + d ≤ d * q := by
      rw [← Nat.mul_succ]
      exact Nat.mul_le_mul_left d h
    exact iff_of_false (by split <;> omega) (by omega)

/-- The whole number nearest to a value that is not negative, a tie going to the even one. -/
def roundEven (x : ℚ) : ℕ := divideToEven x.num.natAbs x.den

theorem roundEven_le_iff {x : ℚ} (hx : 0 ≤ x) {k : ℕ} :
    roundEven x ≤ k ↔ x < k + 1 / 2 ∨ x = k + 1 / 2 ∧ k % 2 = 0 := by
  have hden : (0 : ℚ) < x.den := by exact_mod_cast x.den_pos
  have hnum : ((x.num.natAbs : ℕ) : ℚ) = x * x.den := by
    rw [Rat.mul_den_eq_num, ← Int.natAbs_of_nonneg (Rat.num_nonneg.2 hx)]
    rfl
  have hlt : 2 * x.num.natAbs < (2 * k + 1) * x.den ↔ x < k + 1 / 2 := by
    rw [← Nat.cast_lt (α := ℚ)]
    push_cast [hnum]
    rw [← mul_assoc, mul_lt_mul_iff_left₀ hden]
    constructor <;> intro h <;> linarith
  have heq : 2 * x.num.natAbs = (2 * k + 1) * x.den ↔ x = k + 1 / 2 := by
    rw [← Nat.cast_inj (R := ℚ)]
    push_cast [hnum]
    rw [← mul_assoc, mul_left_inj' hden.ne']
    constructor <;> intro h <;> linarith
  unfold roundEven
  rw [divideToEven_le_iff x.den_pos, hlt, heq]

theorem divideToEven_eq_roundEven {n d : ℕ} (hd : 0 < d) :
    divideToEven n d = roundEven ((n : ℚ) / d) := by
  have hd' : (0 : ℚ) < d := by exact_mod_cast hd
  refine eq_of_forall_ge_iff fun k ↦ ?_
  have hlt : 2 * n < (2 * k + 1) * d ↔ (n : ℚ) / d < k + 1 / 2 := by
    rw [div_lt_iff₀ hd', ← Nat.cast_lt (α := ℚ)]
    push_cast
    constructor <;> intro h <;> linarith
  have heq : 2 * n = (2 * k + 1) * d ↔ (n : ℚ) / d = k + 1 / 2 := by
    rw [div_eq_iff hd'.ne', ← Nat.cast_inj (R := ℚ)]
    push_cast
    constructor <;> intro h <;> linarith
  rw [divideToEven_le_iff hd, roundEven_le_iff (by positivity), hlt, heq]

theorem roundEven_mono {x y : ℚ} (hx : 0 ≤ x) (hxy : x ≤ y) : roundEven x ≤ roundEven y := by
  rw [roundEven_le_iff hx]
  rcases (roundEven_le_iff (hx.trans hxy)).1 le_rfl with h | ⟨h, heven⟩
  · exact .inl (hxy.trans_lt h)
  · rcases hxy.lt_or_eq with hlt | rfl
    · exact .inl (hlt.trans_eq h)
    · exact .inr ⟨h, heven⟩

theorem divideToEven_one (n : ℕ) : divideToEven n 1 = n := by
  have h := Binary64.divideToEven_mul_right (m := n) one_pos
  rwa [mul_one] at h

theorem divideToEven_zero (d : ℕ) : divideToEven 0 d = 0 := by
  rcases Nat.eq_zero_or_pos d with rfl | hd
  · rfl
  · have h := Binary64.divideToEven_mul_right (m := 0) hd
    rwa [zero_mul] at h

theorem roundEven_natCast (n : ℕ) : roundEven n = n := by
  rw [← div_one (n : ℚ), ← Nat.cast_one, ← divideToEven_eq_roundEven one_pos, divideToEven_one]

theorem natCast_le_roundEven {n : ℕ} {x : ℚ} (h : (n : ℚ) ≤ x) : n ≤ roundEven x := by
  have hmono := roundEven_mono (Nat.cast_nonneg n) h
  rwa [roundEven_natCast] at hmono

theorem roundEven_le_natCast {n : ℕ} {x : ℚ} (hx : 0 ≤ x) (h : x ≤ n) : roundEven x ≤ n := by
  have hmono := roundEven_mono hx h
  rwa [roundEven_natCast] at hmono

/-- A value that is rounded up to some number is not below the half before it. -/
theorem le_of_lt_roundEven {k : ℕ} {x : ℚ} (hx : 0 ≤ x) (h : k < roundEven x) :
    (k : ℚ) + 1 / 2 ≤ x := by
  rw [← not_le, roundEven_le_iff hx] at h
  exact not_lt.1 fun hlt ↦ h (.inl hlt)

theorem abs_roundEven_sub_le {x : ℚ} (hx : 0 ≤ x) : |(roundEven x : ℚ) - x| ≤ 1 / 2 := by
  have hhigh : x ≤ roundEven x + 1 / 2 :=
    ((roundEven_le_iff hx).1 le_rfl).elim le_of_lt fun htie ↦ htie.1.le
  have hlow : (roundEven x : ℚ) - 1 / 2 ≤ x := by
    rcases Nat.eq_zero_or_pos (roundEven x) with hzero | hpos
    · rw [hzero, Nat.cast_zero]
      linarith
    · obtain ⟨k, hk⟩ := Nat.exists_eq_add_of_le' hpos
      have hhalf : (k : ℚ) + 1 / 2 ≤ x := le_of_lt_roundEven hx (by omega)
      rw [hk]
      push_cast
      linarith
  rw [abs_le]
  constructor <;> linarith

/-- Counted in units, a value is changed by half a unit at most. -/
theorem abs_roundEven_mul_sub_le {x unit : ℚ} (hx : 0 ≤ x) (hunit : 0 < unit) :
    |(roundEven (x / unit) : ℚ) * unit - x| ≤ unit / 2 := by
  calc |(roundEven (x / unit) : ℚ) * unit - x|
      = |((roundEven (x / unit) : ℚ) - x / unit) * unit| := by
        rw [sub_mul, div_mul_cancel₀ x hunit.ne']
    _ = |(roundEven (x / unit) : ℚ) - x / unit| * unit := by rw [abs_mul, abs_of_pos hunit]
    _ ≤ 1 / 2 * unit :=
        mul_le_mul_of_nonneg_right (abs_roundEven_sub_le (by positivity)) hunit.le
    _ = unit / 2 := one_div_mul_eq_div 2 unit

/-- The values from half below a whole number to half above it, the ends among them for an even
one. -/
theorem roundEven_eq_of_near {m : ℕ} {x : ℚ} (hx : 0 ≤ x) (hlow : (m : ℚ) - 1 / 2 ≤ x)
    (hhigh : x ≤ m + 1 / 2) (hends : m % 2 = 0 ∨ (m : ℚ) - 1 / 2 < x ∧ x < m + 1 / 2) :
    roundEven x = m := by
  apply le_antisymm
  · rw [roundEven_le_iff hx]
    rcases hhigh.lt_or_eq with hlt | heq
    · exact .inl hlt
    · exact .inr ⟨heq, hends.resolve_right fun h ↦ h.2.ne heq⟩
  · rcases Nat.eq_zero_or_pos m with rfl | hm
    · exact Nat.zero_le _
    · obtain ⟨k, rfl⟩ := Nat.exists_eq_add_of_le' hm
      rw [Nat.succ_le_iff, ← not_le, roundEven_le_iff hx]
      push_cast at hlow hends
      rintro (hlt | ⟨heq, heven⟩)
      · linarith
      · rcases hends with hodd | hstrict
        · omega
        · linarith [hstrict.1]

end Ventilation
