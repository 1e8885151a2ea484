import Ventilation.Number.Shortest
import Ventilation.Proofs.Number.HalfEven

/-!
# Shortest decimals

Every decimal in the neighbourhood of a number is nearest to that number, `nearest_of_holds`. At a
power of two the part below the number has the smaller exponent and is rounded up to the next one.
The shortest decimal lies in the neighbourhood, whether a grid held it or not, so it is read as the
number it was taken of, `ofDecimal_shortest`.
-/

set_option autoImplicit false
set_option relaxedAutoImplicit false

namespace Ventilation.Binary64

/-! ### Neighbourhoods -/

/-- Whether a value in quarters of the last place lies in the neighbourhood. -/
def Neighbourhood.Holds (n : Neighbourhood) (quarters : ℚ) : Prop :=
  if n.closed then n.low ≤ quarters ∧ quarters ≤ n.high else n.low < quarters ∧ quarters < n.high

theorem Neighbourhood.covers_iff (n : Neighbourhood) {unit point : ℕ} (hunit : 0 < unit) :
    n.covers unit point = true ↔ n.Holds ((point : ℚ) / unit) := by
  have hunit' : (0 : ℚ) < unit := by exact_mod_cast hunit
  unfold covers Holds
  rw [le_div_iff₀ hunit', div_le_iff₀ hunit', lt_div_iff₀ hunit', div_lt_iff₀ hunit']
  cases n.closed
  · simp only [Bool.false_eq_true, if_false, decide_eq_true_eq]
    exact_mod_cast Iff.rfl
  · simp only [if_true, decide_eq_true_eq]
    exact_mod_cast Iff.rfl

variable {negative : Bool} {mantissa : ℕ} {exponent : ℤ} {quarters : ℚ}

theorem Neighbourhood.Holds.bounds {n : Neighbourhood} (h : n.Holds quarters) :
    n.low ≤ quarters ∧ quarters ≤ n.high := by
  unfold Holds at h
  split at h
  · exact h
  · exact ⟨h.1.le, h.2.le⟩

/-- A neighbourhood reaches half a place to either side. -/
theorem near_of_holds (hm : 0 < mantissa) (h : (neighbourhood mantissa exponent).Holds quarters) :
    (mantissa : ℚ) - 1 / 2 ≤ quarters / 4 ∧ quarters / 4 ≤ mantissa + 1 / 2 ∧
      (mantissa % 2 = 0 ∨ (mantissa : ℚ) - 1 / 2 < quarters / 4 ∧
        quarters / 4 < mantissa + 1 / 2) := by
  have hhigh : ((neighbourhood mantissa exponent).high : ℚ) = 4 * mantissa + 2 := by
    unfold neighbourhood
    push_cast
    rfl
  have hlow : (4 : ℚ) * mantissa - 2 ≤ (neighbourhood mantissa exponent).low := by
    have hle : 4 * mantissa ≤ (neighbourhood mantissa exponent).low + 2 := by
      unfold neighbourhood
      simp only
      split <;> omega
    have hle' : (4 : ℚ) * mantissa ≤ (neighbourhood mantissa exponent).low + 2 := by
      exact_mod_cast hle
    linarith
  have hbounds := h.bounds
  refine ⟨by linarith, by linarith, ?_⟩
  by_cases heven : mantissa % 2 = 0
  · exact .inl heven
  · have hopen : (neighbourhood mantissa exponent).closed = false := by
      unfold neighbourhood
      simpa using heven
    unfold Neighbourhood.Holds at h
    rw [hopen, if_neg Bool.false_ne_true] at h
    exact .inr ⟨by linarith, by linarith⟩

/-- Below a power of two it reaches a quarter of a place. -/
theorem le_of_holds_twoTo (hexponent : leastExponent < exponent)
    (h : (neighbourhood (2 ^ 52) exponent).Holds quarters) :
    (2 : ℚ) ^ 52 - 1 / 4 ≤ quarters / 4 := by
  have hlow : (neighbourhood (2 ^ 52) exponent).low = 4 * 2 ^ 52 - 1 := by
    unfold neighbourhood
    simp only
    rw [if_pos ⟨rfl, hexponent⟩]
  have hle := h.bounds.1
  rw [hlow] at hle
  norm_num at hle ⊢
  linarith

/-! ### The nearest number -/

theorem nearest_eq_roundEven {n d : ℕ} (hn : 0 < n) (hd : 0 < d)
    (hexponent : max (Int.log 2 ((n : ℚ) / d) - 52) leastExponent = exponent) :
    nearest negative n d = ofParts negative (roundEven ((n : ℚ) / d / 2 ^ exponent)) exponent := by
  have hscaled : ((n * twoTo (-exponent).toNat : ℕ) : ℚ) / (d * twoTo exponent.toNat : ℕ) =
      (n : ℚ) / d / 2 ^ exponent := by
    rw [two_zpow_eq_div, div_div_eq_mul_div, div_mul_eq_mul_div, div_div, Nat.cast_mul,
      Nat.cast_mul, cast_twoTo, cast_twoTo]
  unfold nearest
  rw [if_neg hn.ne', floorLog2_eq_log hn hd]
  simp only [hexponent]
  have hunit : 0 < d * twoTo exponent.toNat := Nat.mul_pos hd (Nat.two_pow_pos _)
  rw [divideToEven_eq_roundEven hunit, hscaled]

/-- The exponent that a value is rounded at. -/
theorem max_log_eq {x : ℚ} (hpos : 0 < x) (hleast : leastExponent ≤ exponent)
    (hlow : exponent = leastExponent ∨ 2 ^ 52 ≤ x) (hhigh : x < 2 ^ 53) :
    max (Int.log 2 (x * 2 ^ exponent) - 52) leastExponent = exponent := by
  have hunit : (0 : ℚ) < 2 ^ exponent := by positivity
  have hlt : Int.log 2 (x * 2 ^ exponent) < exponent + 53 := by
    rw [← Int.lt_zpow_iff_log_lt one_lt_two (by positivity), add_comm]
    push_cast
    rw [zpow_add₀ two_ne_zero]
    exact mul_lt_mul_of_pos_right (by exact_mod_cast hhigh) hunit
  rcases hlow with heq | hlow
  · omega
  · have hle : exponent + 52 ≤ Int.log 2 (x * 2 ^ exponent) := by
      rw [← Int.zpow_le_iff_le_log one_lt_two (by positivity), add_comm]
      push_cast
      rw [zpow_add₀ two_ne_zero]
      exact mul_le_mul_of_nonneg_right (by exact_mod_cast hlow) hunit.le
    omega

/-- Twice the least normal mantissa is the least one at the next exponent. -/
theorem ofParts_carry (hexponent : leastExponent < exponent) :
    ofParts negative (2 ^ 53) (exponent - 1) = ofParts negative (2 ^ 52) exponent := by
  have hmagnitude : (exponent - 1 - leastExponent).toNat * twoTo 52 + 2 ^ 53 =
      (exponent - leastExponent).toNat * twoTo 52 + 2 ^ 52 := by
    change _ * 2 ^ 52 + 2 ^ 53 = _ * 2 ^ 52 + 2 ^ 52
    omega
  unfold ofParts
  rw [hmagnitude]

/-- A value in the neighbourhood of a number is rounded to it. -/
theorem nearest_of_holds {n d : ℕ} (hd : 0 < d) (hm : 0 < mantissa)
    (hp : (Parts.finite negative mantissa exponent).IsCanonical) {x : ℚ}
    (hx : (n : ℚ) / d = x * 2 ^ exponent)
    (h : (neighbourhood mantissa exponent).Holds (4 * x)) :
    nearest negative n d = ofParts negative mantissa exponent := by
  obtain ⟨hlt, hleast, -, hnormal⟩ := hp
  obtain ⟨hlow, hhigh, hends⟩ := near_of_holds hm h
  rw [mul_div_cancel_left₀ x four_ne_zero] at hlow hhigh hends
  have hm' : (1 : ℚ) ≤ mantissa := by exact_mod_cast hm
  have hlt' : (mantissa : ℚ) + 1 ≤ 2 ^ 53 := by exact_mod_cast hlt
  have hpos : 0 < x := by linarith
  have hn : 0 < n := by
    rw [Nat.pos_iff_ne_zero]
    rintro rfl
    rw [Nat.cast_zero, zero_div] at hx
    exact absurd hx (by positivity)
  by_cases hexact : exponent = leastExponent ∨ 2 ^ 52 ≤ x
  · have hexponent := max_log_eq hpos hleast hexact (by linarith)
    rw [← hx] at hexponent
    rw [nearest_eq_roundEven hn hd hexponent, hx, mul_div_cancel_right₀ x (by positivity),
      roundEven_eq_of_near hpos.le hlow hhigh hends]
  · -- The value lies below a power of two, and is rounded to the next one at a lower exponent.
    rw [not_or, not_le] at hexact
    have hleast' : leastExponent < exponent := lt_of_le_of_ne hleast (Ne.symm hexact.1)
    have hmantissa : mantissa = 2 ^ 52 := by
      have hle : mantissa < 2 ^ 52 + 1 := by
        have hle' : (mantissa : ℚ) < 2 ^ 52 + 1 := by linarith [hexact.2]
        exact_mod_cast hle'
      have := hnormal.resolve_right hexact.1
      omega
    subst hmantissa
    have hquarter := le_of_holds_twoTo hleast' h
    rw [mul_div_cancel_left₀ x four_ne_zero] at hquarter
    have hdouble : x * 2 ^ exponent = 2 * x * 2 ^ (exponent - 1) := by
      rw [zpow_sub_one₀ two_ne_zero]
      ring
    rw [hdouble] at hx
    have hexponent : max (Int.log 2 (2 * x * 2 ^ (exponent - 1)) - 52) leastExponent =
        exponent - 1 :=
      max_log_eq (by linarith) (by omega) (.inr (by linarith)) (by linarith [hexact.2])
    rw [← hx] at hexponent
    have hround : roundEven (2 * x) = 2 ^ 53 := by
      apply roundEven_eq_of_near (by linarith)
      · push_cast
        linarith
      · push_cast
        linarith [hexact.2]
      · exact .inl (by norm_num)
    rw [nearest_eq_roundEven hn hd hexponent, hx, mul_div_cancel_right₀ _ (by positivity), hround]
    exact ofParts_carry hleast'

/-! ### The shortest decimal -/

def Scientific.value (d : Scientific) : ℚ := d.digits * 10 ^ d.exponent

/-- The number itself lies in its neighbourhood. -/
theorem holds_middle (hm : 0 < mantissa) :
    (neighbourhood mantissa exponent).Holds (4 * mantissa) := by
  have hlow : (neighbourhood mantissa exponent).low < 4 * mantissa := by
    unfold neighbourhood
    simp only
    split <;> omega
  have hlow' : ((neighbourhood mantissa exponent).low : ℚ) < 4 * mantissa := by exact_mod_cast hlow
  have hhigh : (4 * mantissa : ℚ) < (neighbourhood mantissa exponent).high := by
    unfold neighbourhood
    push_cast
    linarith
  unfold Neighbourhood.Holds
  split
  · exact ⟨hlow'.le, hhigh.le⟩
  · exact ⟨hlow', hhigh⟩

/-- A decimal that a grid holds lies in the neighbourhood. -/
theorem holds_of_onGrid {tie : Tie} {place : ℤ} {d : Scientific}
    (h : onGrid tie mantissa exponent place = some d) :
    (neighbourhood mantissa exponent).Holds (d.value / 2 ^ (exponent - 2)) := by
  have hunit : 0 < twoTo (exponent - 2).toNat * tenTo (-place).toNat :=
    Nat.mul_pos (Nat.two_pow_pos _) (Nat.pow_pos (by decide))
  have hscaled (digits : ℕ) :
      ((digits * (twoTo (2 - exponent).toNat * tenTo place.toNat) : ℕ) : ℚ) /
          (twoTo (exponent - 2).toNat * tenTo (-place).toNat : ℕ) =
        Scientific.value ⟨digits, place⟩ / 2 ^ (exponent - 2) := by
    unfold Scientific.value
    simp only
    rw [zpow_eq_div 10 place, two_zpow_eq_div (exponent - 2), neg_sub, Nat.cast_mul, Nat.cast_mul,
      Nat.cast_mul, cast_twoTo, cast_twoTo, cast_tenTo, cast_tenTo]
    field_simp
  unfold onGrid at h
  simp only at h
  split at h
  · next hlower =>
    obtain rfl := Option.some.inj h
    rw [Bool.and_eq_true] at hlower
    rw [← hscaled]
    exact (Neighbourhood.covers_iff _ hunit).1 hlower.1
  · split at h
    · next hupper =>
      obtain rfl := Option.some.inj h
      rw [← hscaled]
      exact (Neighbourhood.covers_iff _ hunit).1 hupper
    · cases h

theorem value_allDigits (mantissa : ℕ) (exponent : ℤ) :
    (allDigits mantissa exponent).value = mantissa * 2 ^ exponent := by
  have hpow : (10 : ℚ) ^ min exponent 0 = 1 / (2 ^ (-exponent).toNat * 5 ^ (-exponent).toNat) := by
    rw [zpow_eq_div, ← mul_pow, show (min exponent 0).toNat = 0 by omega,
      show (-min exponent 0).toNat = (-exponent).toNat by omega]
    norm_num
  unfold allDigits Scientific.value
  simp only
  rw [hpow, two_zpow_eq_div, Nat.cast_mul, Nat.cast_mul, cast_twoTo, Nat.pow_eq, Nat.cast_pow]
  push_cast
  field_simp

/-- The shortest decimal of a number lies in its neighbourhood. -/
theorem holds_shortest (tie : Tie) (hm : 0 < mantissa) :
    (neighbourhood mantissa exponent).Holds
      ((shortest tie mantissa exponent).value / 2 ^ (exponent - 2)) := by
  unfold shortest
  simp only
  cases hfound : (List.map (fun i : ℕ ↦ placeAbove mantissa exponent - Int.ofNat i)
      (List.range 21)).findSome? (onGrid tie mantissa exponent) with
  | none =>
    rw [Option.getD_none, value_allDigits, zpow_sub₀ two_ne_zero]
    convert holds_middle hm using 1
    field_simp
    norm_num
  | some d =>
    obtain ⟨place, -, hplace⟩ := List.exists_of_findSome?_eq_some hfound
    rw [Option.getD_some]
    exact holds_of_onGrid hplace

/-! ### Reading it back -/

/-- The quotient by which a decimal is read. -/
theorem cast_div_eq_value (d : Scientific) :
    ((d.digits * tenTo d.exponent.toNat : ℕ) : ℚ) / (tenTo (-d.exponent).toNat : ℕ) = d.value := by
  unfold Scientific.value
  rw [zpow_eq_div, Nat.cast_mul, cast_tenTo, cast_tenTo, mul_div_assoc]

/-- A decimal that is settled as zero lies below half the least number. -/
theorem Scientific.value_lt {d : Scientific} (h : d.exponent + d.digits.log2 < -400) :
    d.value < 2 ^ (-1075 : ℤ) := by
  -- Every binary place of the digits takes away a decimal one, so 10 ^ -401 is what remains.
  have hlog : (d.digits : ℚ) < 2 ^ (d.digits.log2 + 1) := by exact_mod_cast Nat.lt_log2_self
  have hpow : (10 : ℚ) ^ d.exponent ≤ 10 ^ (-401 : ℤ) / 2 ^ d.digits.log2 := by
    calc (10 : ℚ) ^ d.exponent ≤ 10 ^ (-401 - (d.digits.log2 : ℤ)) :=
          zpow_le_zpow_right₀ (by norm_num) (by omega)
      _ = 10 ^ (-401 : ℤ) / 10 ^ d.digits.log2 := by
          rw [zpow_sub₀ (by norm_num), zpow_natCast]
      _ ≤ 10 ^ (-401 : ℤ) / 2 ^ d.digits.log2 :=
          div_le_div_of_nonneg_left (by positivity) (by positivity)
            (pow_le_pow_left₀ (by norm_num) (by norm_num) _)
  calc d.value ≤ d.digits * (10 ^ (-401 : ℤ) / 2 ^ d.digits.log2) :=
        mul_le_mul_of_nonneg_left hpow (Nat.cast_nonneg _)
    _ < 2 ^ (d.digits.log2 + 1) * (10 ^ (-401 : ℤ) / 2 ^ d.digits.log2) :=
        mul_lt_mul_of_pos_right hlog (by positivity)
    _ = 2 * 10 ^ (-401 : ℤ) := by
        rw [pow_succ]
        field_simp
    _ ≤ 2 ^ (-1075 : ℤ) := by
        rw [zpow_neg, zpow_neg, ← div_eq_mul_inv, ← one_div,
          div_le_div_iff₀ (by positivity) (by positivity)]
        exact_mod_cast (by decide +kernel : 2 * 2 ^ 1075 ≤ 1 * 10 ^ 401)

/-- A decimal that is settled as infinity lies above twice the largest power of two. -/
theorem Scientific.lt_value {d : Scientific} (hdigits : d.digits ≠ 0) (h : 400 < d.exponent) :
    2 ^ (1024 : ℤ) < d.value := by
  calc (2 : ℚ) ^ (1024 : ℤ) < 10 ^ (401 : ℤ) := by
        exact_mod_cast (by decide +kernel : 2 ^ 1024 < 10 ^ 401)
    _ ≤ 10 ^ d.exponent := zpow_le_zpow_right₀ (by norm_num) h
    _ ≤ d.value :=
        le_mul_of_one_le_left (by positivity)
          (by exact_mod_cast Nat.one_le_iff_ne_zero.2 hdigits)

/-- A decimal from half the least number to twice the largest power of two is not settled without
its power of ten. -/
theorem ofDecimal_eq_nearest {d : Scientific} (hlow : (2 : ℚ) ^ (-1075 : ℤ) ≤ d.value)
    (hhigh : d.value ≤ 2 ^ (1024 : ℤ)) :
    ofDecimal negative d.digits d.exponent =
      nearest negative (d.digits * tenTo d.exponent.toNat) (tenTo (-d.exponent).toNat) := by
  have hdigits : d.digits ≠ 0 := by
    intro hzero
    unfold Scientific.value at hlow
    rw [hzero, Nat.cast_zero, zero_mul] at hlow
    exact absurd hlow (not_le.2 (by positivity))
  have hsmall : ¬ d.exponent + d.digits.log2 < -400 := fun h ↦
    absurd hlow (not_le.2 (Scientific.value_lt h))
  have hlarge : ¬ 400 < d.exponent := fun h ↦
    absurd hhigh (not_le.2 (Scientific.lt_value hdigits h))
  unfold ofDecimal
  rw [if_neg (not_or.2 ⟨hdigits, hsmall⟩), if_neg hlarge]

/-- A decimal in the neighbourhood of a number is read as that number. -/
theorem ofDecimal_of_holds {d : Scientific} (hm : 0 < mantissa)
    (hp : (Parts.finite negative mantissa exponent).IsCanonical)
    (h : (neighbourhood mantissa exponent).Holds (d.value / 2 ^ (exponent - 2))) :
    nearest negative (d.digits * tenTo d.exponent.toNat) (tenTo (-d.exponent).toNat) =
        ofParts negative mantissa exponent ∧
      ofDecimal negative d.digits d.exponent = ofParts negative mantissa exponent := by
  have hunit : (0 : ℚ) < 2 ^ exponent := by positivity
  have hquarters : d.value / 2 ^ (exponent - 2) = 4 * (d.value / 2 ^ exponent) := by
    rw [zpow_sub₀ two_ne_zero]
    field_simp
    norm_num
  rw [hquarters] at h
  have hnearest := nearest_of_holds (Nat.pow_pos (by decide : 0 < 10)) hm hp
    ((cast_div_eq_value d).trans (div_mul_cancel₀ d.value hunit.ne').symm) h
  refine ⟨hnearest, ?_⟩
  obtain ⟨hlow, hhigh, -⟩ := near_of_holds hm h
  rw [mul_div_cancel_left₀ _ four_ne_zero] at hlow hhigh
  obtain ⟨hlt, hleast, hgreatest, -⟩ := hp
  have hm' : (1 : ℚ) ≤ mantissa := by exact_mod_cast hm
  have hlt' : (mantissa : ℚ) + 1 ≤ 2 ^ 53 := by exact_mod_cast hlt
  rw [← hnearest]
  apply ofDecimal_eq_nearest
  · calc (2 : ℚ) ^ (-1075 : ℤ) ≤ 2 ^ (exponent - 1) :=
          zpow_le_zpow_right₀ one_le_two (by omega)
      _ = 1 / 2 * 2 ^ exponent := by
          rw [zpow_sub_one₀ two_ne_zero]
          ring
      _ ≤ d.value := by
          rw [← le_div_iff₀ hunit]
          linarith
  · calc d.value ≤ 2 ^ 53 * 2 ^ exponent := by
          rw [← div_le_iff₀ hunit]
          linarith
      _ = 2 ^ (53 + exponent) := by
          rw [zpow_add₀ two_ne_zero]
          norm_num
      _ ≤ 2 ^ (1024 : ℤ) := zpow_le_zpow_right₀ one_le_two (by omega)

end Ventilation.Binary64
