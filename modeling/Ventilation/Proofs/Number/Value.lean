import Mathlib.Algebra.Order.Field.Power
import Mathlib.Data.Int.Log
import Mathlib.Data.Rat.Floor
import Mathlib.Tactic.Linarith
import Mathlib.Tactic.Positivity
import Mathlib.Tactic.Ring
import Ventilation.Proofs.Number.Order

/-!
# Exact values

The value of a finite number is a rational. A quotient that is the value of a number is rounded to
that number, `nearest_eq_ofParts`; so a number whose value is whole is kept by every directed
rounding, has no fraction, and is the one nearest to the integer it is cut to.
-/

set_option autoImplicit false
set_option relaxedAutoImplicit false

namespace Ventilation.Binary64

open Float.Model

/-! ### Values -/

def Parts.value? : Parts → Option ℚ
  | .finite negative mantissa exponent =>
    some ((bif negative then -1 else 1) * (mantissa * 2 ^ exponent))
  | _ => none

/-- The exact value of a finite number. -/
def value? (x : Float) : Option ℚ := (parts x).value?

theorem zpow_eq_div (b : ℚ) (e : ℤ) : b ^ e = b ^ e.toNat / b ^ (-e).toNat := by
  rcases Int.le_total 0 e with h | h
  · obtain ⟨k, rfl⟩ := Int.eq_ofNat_of_zero_le h
    have hneg : (-(k : ℤ)).toNat = 0 := by omega
    rw [hneg, pow_zero, div_one, Int.toNat_natCast, zpow_natCast]
  · obtain ⟨k, hk⟩ := Int.eq_ofNat_of_zero_le (Int.neg_nonneg_of_nonpos h)
    obtain rfl : e = -(k : ℤ) := by omega
    have hpos : (-(k : ℤ)).toNat = 0 := by omega
    rw [hpos, pow_zero, neg_neg, Int.toNat_natCast, zpow_neg, zpow_natCast, one_div]

theorem two_zpow_eq_div (e : ℤ) : (2 : ℚ) ^ e = 2 ^ e.toNat / 2 ^ (-e).toNat := zpow_eq_div 2 e

theorem cast_twoTo (k : ℕ) : ((twoTo k : ℕ) : ℚ) = 2 ^ k := Nat.cast_pow 2 k

theorem cast_tenTo (k : ℕ) : ((tenTo k : ℕ) : ℚ) = 10 ^ k := Nat.cast_pow 10 k

/-- Crossed multiplication of a quotient with a power of two. -/
theorem mul_twoTo_lt_iff {n d : ℕ} (hd : 0 < d) (e : ℤ) :
    n * twoTo (-e).toNat < d * twoTo e.toNat ↔ (n : ℚ) / d < 2 ^ e := by
  have hd' : (0 : ℚ) < d := by exact_mod_cast hd
  rw [two_zpow_eq_div, div_lt_div_iff₀ hd' (by positivity), mul_comm (2 ^ e.toNat : ℚ)]
  exact_mod_cast Iff.rfl

/-- A whole value in terms of whole numbers. -/
theorem natCast_eq_mul_zpow_iff {n mantissa : ℕ} {e : ℤ} :
    (n : ℚ) = mantissa * 2 ^ e ↔ mantissa * twoTo e.toNat = n * twoTo (-e).toNat := by
  rw [two_zpow_eq_div, ← mul_div_assoc, eq_div_iff (by positivity), eq_comm]
  exact_mod_cast Iff.rfl

/-! ### Rounding a value -/

private theorem log_eq {q : ℚ} {k : ℤ} (hlow : 2 ^ k ≤ q) (hhigh : q < 2 ^ (k + 1)) :
    Int.log 2 q = k := by
  have hq : 0 < q := lt_of_lt_of_le (by positivity) hlow
  have hge := (Int.zpow_le_iff_le_log one_lt_two hq).1 (by exact_mod_cast hlow)
  have hlt := (Int.lt_zpow_iff_log_lt one_lt_two hq).1 (by exact_mod_cast hhigh)
  omega

theorem floorLog2_eq_log {n d : ℕ} (hn : 0 < n) (hd : 0 < d) :
    floorLog2 n d = Int.log 2 ((n : ℚ) / d) := by
  have hd' : (0 : ℚ) < d := by exact_mod_cast hd
  have hnlow : (2 : ℚ) ^ n.log2 ≤ n := by exact_mod_cast Nat.log2_self_le hn.ne'
  have hnhigh : (n : ℚ) < 2 ^ (n.log2 + 1) := by exact_mod_cast Nat.lt_log2_self
  have hdlow : (2 : ℚ) ^ d.log2 ≤ d := by exact_mod_cast Nat.log2_self_le hd.ne'
  have hdhigh : (d : ℚ) < 2 ^ (d.log2 + 1) := by exact_mod_cast Nat.lt_log2_self
  have hlow : (2 : ℚ) ^ ((n.log2 : ℤ) - d.log2 - 1) ≤ n / d := by
    rw [sub_sub, zpow_sub₀ two_ne_zero, div_le_div_iff₀ (by positivity) hd']
    calc (2 : ℚ) ^ (n.log2 : ℤ) * d ≤ n * d := by
          exact mul_le_mul_of_nonneg_right (by exact_mod_cast hnlow) hd'.le
      _ ≤ n * 2 ^ ((d.log2 : ℤ) + 1) := by
          exact mul_le_mul_of_nonneg_left (by exact_mod_cast hdhigh.le) (by positivity)
  have hhigh : (n : ℚ) / d < 2 ^ ((n.log2 : ℤ) - d.log2 + 1) := by
    rw [sub_add_eq_add_sub, zpow_sub₀ two_ne_zero, div_lt_div_iff₀ hd' (by positivity)]
    calc (n : ℚ) * 2 ^ (d.log2 : ℤ) < 2 ^ ((n.log2 : ℤ) + 1) * 2 ^ (d.log2 : ℤ) := by
          exact mul_lt_mul_of_pos_right (by exact_mod_cast hnhigh) (by positivity)
      _ ≤ 2 ^ ((n.log2 : ℤ) + 1) * d := by
          exact mul_le_mul_of_nonneg_left (by exact_mod_cast hdlow) (by positivity)
  unfold floorLog2
  by_cases h : n * twoTo (-((n.log2 : ℤ) - d.log2)).toNat <
      d * twoTo ((n.log2 : ℤ) - d.log2).toNat
  · rw [if_pos h]
    rw [mul_twoTo_lt_iff hd] at h
    exact (log_eq hlow (by rwa [sub_add_cancel])).symm
  · rw [if_neg h]
    rw [mul_twoTo_lt_iff hd, not_lt] at h
    exact (log_eq h hhigh).symm

theorem log_mantissa_mul {mantissa : ℕ} {exponent : ℤ} (hm : 0 < mantissa) :
    Int.log 2 ((mantissa : ℚ) * 2 ^ exponent) = mantissa.log2 + exponent := by
  have hlow : (2 : ℚ) ^ mantissa.log2 ≤ mantissa := by exact_mod_cast Nat.log2_self_le hm.ne'
  have hhigh : (mantissa : ℚ) < 2 ^ (mantissa.log2 + 1) := by exact_mod_cast Nat.lt_log2_self
  apply log_eq
  · rw [zpow_add₀ two_ne_zero]
    exact mul_le_mul_of_nonneg_right (by exact_mod_cast hlow) (by positivity)
  · rw [add_right_comm, zpow_add₀ two_ne_zero]
    exact mul_lt_mul_of_pos_right (by exact_mod_cast hhigh) (by positivity)

theorem divideToEven_mul_right {m d : ℕ} (hd : 0 < d) : divideToEven (m * d) d = m := by
  unfold divideToEven
  rw [Nat.mul_mod_left, if_pos (.inl (by omega)), Nat.mul_div_cancel _ hd]

/-- A quotient that is the value of a number is not rounded. -/
theorem nearest_eq_ofParts {negative : Bool} {n d mantissa : ℕ} {exponent : ℤ} (hd : 0 < d)
    (hp : (Parts.finite negative mantissa exponent).IsCanonical)
    (h : (n : ℚ) / d = mantissa * 2 ^ exponent) :
    nearest negative n d = ofParts negative mantissa exponent := by
  obtain ⟨hm, hle, hge, hnormal⟩ := hp
  have hd' : (d : ℚ) ≠ 0 := by exact_mod_cast hd.ne'
  unfold nearest
  by_cases hn : n = 0
  · have hzero : mantissa = 0 := by
      rw [hn, Nat.cast_zero, zero_div, eq_comm, mul_eq_zero] at h
      exact_mod_cast h.resolve_right (by positivity)
    rw [if_pos hn, hzero, show exponent = leastExponent by unfold leastExponent; omega]
  · have hpos : 0 < mantissa := by
      rcases Nat.eq_zero_or_pos mantissa with hzero | hpos
      · rw [hzero, Nat.cast_zero, zero_mul, div_eq_zero_iff] at h
        exact absurd (by exact_mod_cast h.resolve_right hd') hn
      · exact hpos
    have hexponent : max (floorLog2 n d - 52) leastExponent = exponent := by
      rw [floorLog2_eq_log (Nat.pos_of_ne_zero hn) hd, h, log_mantissa_mul hpos]
      have hlog := (Nat.log2_lt hpos.ne').2 hm
      have hlarge : 2 ^ 52 ≤ mantissa → 52 ≤ mantissa.log2 := (Nat.le_log2 hpos.ne').2
      unfold leastExponent
      omega
    have hscaled : n * twoTo (-exponent).toNat = mantissa * (d * twoTo exponent.toNat) := by
      rw [two_zpow_eq_div, ← mul_div_assoc, div_eq_div_iff hd' (by positivity)] at h
      have : n * 2 ^ (-exponent).toNat = mantissa * 2 ^ exponent.toNat * d := by exact_mod_cast h
      rw [show d * twoTo exponent.toNat = 2 ^ exponent.toNat * d from mul_comm _ _, ← mul_assoc]
      exact this
    rw [if_neg hn]
    simp only [hexponent, hscaled]
    exact congrArg (ofParts negative · exponent)
      (divideToEven_mul_right (Nat.mul_pos hd (Nat.two_pow_pos _)))

/-! ### Whole values -/

theorem exists_parts {x : Float} {q : ℚ} (h : value? x = some q) :
    ∃ negative mantissa exponent, parts x = .finite negative mantissa exponent ∧
      q = (bif negative then -1 else 1) * (mantissa * 2 ^ exponent) := by
  unfold value? at h
  cases hx : parts x with
  | nan => simp [hx, Parts.value?] at h
  | infinite negative => simp [hx, Parts.value?] at h
  | finite negative mantissa exponent =>
    rw [hx, Parts.value?, Option.some.injEq] at h
    exact ⟨negative, mantissa, exponent, rfl, h.symm⟩

theorem exists_parts_of_nonneg {x : Float} {q : ℚ} (h : value? x = some q) (hq : 0 ≤ q) :
    ∃ negative mantissa exponent, parts x = .finite negative mantissa exponent ∧
      q = mantissa * 2 ^ exponent ∧ (negative = true → mantissa = 0) := by
  obtain ⟨negative, mantissa, exponent, hx, rfl⟩ := exists_parts h
  refine ⟨negative, mantissa, exponent, hx, ?_⟩
  cases negative
  · exact ⟨by rw [cond_false, one_mul], by simp⟩
  · have hmagnitude : (0 : ℚ) ≤ mantissa * 2 ^ exponent := by positivity
    rw [cond_true, neg_one_mul] at hq ⊢
    have hzero : (mantissa : ℚ) * 2 ^ exponent = 0 := by linarith
    have hmantissa : mantissa = 0 := by
      exact_mod_cast (mul_eq_zero.1 hzero).resolve_right (by positivity)
    exact ⟨by linarith, fun _ ↦ hmantissa⟩

theorem exists_parts_of_value? {x : Float} {n : ℕ} (h : value? x = some (n : ℚ)) :
    ∃ negative mantissa exponent, parts x = .finite negative mantissa exponent ∧
      (n : ℚ) = mantissa * 2 ^ exponent ∧ (negative = true → mantissa = 0) :=
  exists_parts_of_nonneg h n.cast_nonneg

theorem value?_of_finite {x : Float} {negative : Bool} {mantissa : ℕ} {exponent : ℤ}
    (hx : parts x = .finite negative mantissa exponent) :
    value? x = some ((bif negative then -1 else 1 : ℚ) * (mantissa * 2 ^ exponent)) := by
  unfold value?
  rw [hx, Parts.value?]

theorem value?_of_parts {x : Float} {negative : Bool} {mantissa : ℕ} {exponent : ℤ}
    (hx : parts x = .finite negative mantissa exponent) (hsign : negative = true → mantissa = 0) :
    value? x = some ((mantissa : ℚ) * 2 ^ exponent) := by
  rw [value?_of_finite hx]
  cases negative
  · rw [cond_false, one_mul]
  · rw [hsign rfl, Nat.cast_zero, zero_mul, mul_zero]

/-- A whole number is the one nearest to its value. -/
theorem nearest_value {x : Float} {n : ℕ} (h : value? x = some (n : ℚ)) :
    IsNumber x ∧ IsNumber (nearest false n 1) ∧ place (nearest false n 1) = place x ∧
      value? (nearest false n 1) = some (n : ℚ) := by
  obtain ⟨negative, mantissa, exponent, hx, hn, hsign⟩ := exists_parts_of_value? h
  have hcanonical : (Parts.finite negative mantissa exponent).IsCanonical :=
    hx ▸ isCanonical_parts x
  have hcanonical' : (Parts.finite false mantissa exponent).IsCanonical := hcanonical
  have hnearest : nearest false n 1 = ofParts false mantissa exponent :=
    nearest_eq_ofParts one_pos hcanonical' (by rw [Nat.cast_one, div_one, hn])
  have hparts : parts (nearest false n 1) = .finite false mantissa exponent := by
    rw [hnearest, parts_ofParts hcanonical']
  refine ⟨by simp [IsNumber, hx], by simp [IsNumber, hparts], ?_, ?_⟩
  · unfold place
    rw [hparts, hx]
    cases negative
    · rfl
    · obtain rfl := hsign rfl
      have hzero := (Parts.magnitude_finite_eq_zero hcanonical').2 rfl
      have hzero' := (Parts.magnitude_finite_eq_zero hcanonical).2 rfl
      simp only [Parts.place, Parts.isNegative, cond_true, cond_false, hzero, hzero']
      rfl
  · rw [value?_of_parts hparts (by simp), hn]

theorem toWhole_of_value? (direction : Direction) {x : Float} {n : ℕ}
    (h : value? x = some (n : ℚ)) : toWhole direction x = x := by
  obtain ⟨negative, mantissa, exponent, hx, hn, -⟩ := exists_parts_of_value? h
  have hcanonical : (Parts.finite negative mantissa exponent).IsCanonical :=
    hx ▸ isCanonical_parts x
  unfold toWhole
  rw [hx]
  simp only
  by_cases he : 0 ≤ exponent
  · rw [if_pos he]
  · have hunit : 0 < twoTo (-exponent).toNat := Nat.two_pow_pos _
    have hmantissa : mantissa = n * twoTo (-exponent).toNat := by
      have hcast : (n : ℚ) * 2 ^ (-exponent).toNat = mantissa := by
        rw [hn, two_zpow_eq_div, Int.toNat_of_nonpos (by omega), pow_zero, mul_assoc,
          div_mul_cancel₀ _ (by positivity), mul_one]
      exact_mod_cast hcast.symm
    have hrest : mantissa % twoTo (-exponent).toNat = 0 := by
      rw [hmantissa, Nat.mul_mod_left]
    have hquotient : mantissa / twoTo (-exponent).toNat = n := by
      rw [hmantissa, Nat.mul_div_cancel _ hunit]
    have hraises : direction.raises negative 0 (twoTo (-exponent).toNat) = false := by
      cases direction <;> simp [Direction.raises]
    rw [if_neg he, hrest, hraises, hquotient]
    exact (nearest_eq_ofParts one_pos hcanonical (by simp [hn])).trans (ofParts_parts hx)

/-- A number that is not negative is cut down to an integer. -/
theorem toInt64_of_nonneg {x : Float} {q : ℚ} (h : value? x = some q) (hq : 0 ≤ q)
    (hlt : q < 2 ^ 63) : toInt64 x = ⌊q⌋ := by
  obtain ⟨negative, mantissa, exponent, hx, hvalue, hsign⟩ := exists_parts_of_nonneg h hq
  have hwhole :
      ((mantissa * twoTo exponent.toNat / twoTo (-exponent).toNat : ℕ) : ℤ) = ⌊q⌋ := by
    rw [hvalue, two_zpow_eq_div, ← mul_div_assoc, ← cast_twoTo, ← cast_twoTo, ← Nat.cast_mul,
      Rat.floor_natCast_div_natCast]
    norm_cast
  have hsigned : (if negative then -⌊q⌋ else ⌊q⌋) = ⌊q⌋ := by
    cases negative
    · rfl
    · have hzero : ⌊q⌋ = 0 := by
        rw [hvalue, hsign rfl, Nat.cast_zero, zero_mul, Int.floor_zero]
      rw [hzero]
      rfl
  have hhigh : ⌊q⌋ < 2 ^ 63 := Int.floor_lt.2 (by exact_mod_cast hlt)
  have hlow := Int.floor_nonneg.2 hq
  unfold toInt64 toIntWithin
  rw [hx]
  simp only [hwhole, hsigned]
  change max (-2 ^ 63) (min (2 ^ 63 - 1) ⌊q⌋) = ⌊q⌋
  omega

/-! ### Differences -/

/-- The difference of a finite number and itself is the positive zero. -/
theorem sub_self_of_finite {x : Float} {negative : Bool} {mantissa : ℕ} {exponent : ℤ}
    (hx : parts x = .finite negative mantissa exponent) :
    x - x = ofParts false 0 leastExponent := by
  have hzero : (parts x).unpacked.sub .binary64 (parts x).unpacked =
      (Parts.finite false 0 leastExponent).unpacked := by
    rw [hx]
    by_cases hm : mantissa = 0
    · subst hm
      cases negative <;> rfl
    · simp only [Parts.unpacked, hm, ↓reduceDIte, UnpackedFloat.sub, UnpackedFloat.normalize,
        sub_self]
      rfl
  have hcanonical : (Parts.finite false 0 leastExponent).IsCanonical :=
    ⟨by decide, by decide, by decide, .inr rfl⟩
  have hsub : x - x = .ofModel (.pack (Parts.finite false 0 leastExponent).unpacked) := by
    rw [← hzero, ← unpack_toModel]
    rfl
  have hparts : parts (x - x) = parts (ofParts false 0 leastExponent) := by
    rw [hsub, parts_ofModel_pack hcanonical, parts_ofParts hcanonical]
  exact parts_inj (by rw [hsub, parts_ofModel_pack hcanonical]; simp) hparts

theorem fract_of_value? {x : Float} {n : ℕ} (h : value? x = some (n : ℚ)) :
    (fract x == 0) = true := by
  obtain ⟨negative, mantissa, exponent, hx, -, -⟩ := exists_parts_of_value? h
  have htrunc : trunc x = x := toWhole_of_value? .towardZero h
  unfold fract
  rw [htrunc, sub_self_of_finite hx]
  decide +kernel

end Ventilation.Binary64
