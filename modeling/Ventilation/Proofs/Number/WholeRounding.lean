import Ventilation.Proofs.Number.Operations

/-!
# Rounding numbers to whole ones

A finite number is rounded half to even as its value is, `value?_roundHalfEven`. Only one step on
the way can itself be rounded: the difference of a number between -1/2 and 0 and its floor, which is
then still no less than a half.
-/

set_option autoImplicit false
set_option relaxedAutoImplicit false

namespace Ventilation.Binary64

variable {x : Float} {q : ℚ}

/-! ### Fractions -/

/-- The whole numbers beside a number with a fraction have at most 53 bits. -/
theorem floor_eq_or_natAbs_lt (h : value? x = some q) :
    (⌊q⌋ : ℚ) = q ∨ ⌊q⌋.natAbs < 2 ^ 53 ∧ (⌊q⌋ + 1).natAbs < 2 ^ 53 := by
  rcases isWhole_or_fraction h with ⟨n, rfl, -⟩ | ⟨negative, n, unit, rfl, hunit, hlt, -⟩
  · exact .inl (by rw [Int.floor_intCast])
  · right
    cases negative with
    | false =>
      rw [cond_false, one_mul, floor_natCast_div]
      generalize n / unit = whole at hlt
      omega
    | true =>
      rw [cond_true, neg_one_mul, Int.floor_neg, ceil_natCast_div hunit]
      generalize n / unit = whole at hlt
      split <;> omega

/-- A remainder has no more bits than a dividend that is at least half the divisor, or not
negative. -/
theorem natAbs_emod_two_pow_lt {k : ℤ} {j : ℕ} (hk : k.natAbs < 2 ^ 53)
    (h : 0 ≤ k ∨ 2 * k ≤ -2 ^ j) : (k % 2 ^ j).natAbs < 2 ^ 53 := by
  have hunit : (0 : ℤ) < 2 ^ j := by positivity
  have hnonneg := Int.emod_nonneg k hunit.ne'
  have hlt := Int.emod_lt_of_pos k hunit
  rcases h with h | h
  · have hle : k % 2 ^ j ≤ k := by
      rw [Int.emod_def, sub_le_self_iff]
      exact mul_nonneg hunit.le (Int.ediv_nonneg h hunit.le)
    omega
  · have hplace : j < 54 := by
      rw [← pow_lt_pow_iff_right₀ (one_lt_two (α := ℤ))]
      omega
    have hpow : (2 : ℤ) ^ j ≤ 2 ^ 53 := pow_le_pow_right₀ one_le_two (by omega)
    omega

/-- What a number has beyond its floor has no more bits than the number, unless a small negative
number is taken from a whole one. -/
theorem isRepresentable_sub_floor (h : value? x = some q) (hq : 0 ≤ q ∨ q ≤ -1 / 2) :
    IsRepresentable (q - ⌊q⌋) := by
  obtain ⟨k, e, rfl, hbits, hlow, hhigh⟩ := exists_eq_mul_zpow h
  rcases le_or_gt 0 e with he | he
  · obtain ⟨j, rfl⟩ := Int.eq_ofNat_of_zero_le he
    have hwhole : (k : ℚ) * 2 ^ (j : ℤ) = (k * 2 ^ j : ℤ) := by
      push_cast
      rfl
    rw [hwhole, Int.floor_intCast, sub_self]
    exact_mod_cast isRepresentable_intCast (k := 0) (by decide)
  · obtain ⟨j, rfl⟩ : ∃ j : ℕ, e = -j := ⟨(-e).toNat, by omega⟩
    have hunit : (0 : ℚ) < 2 ^ j := by positivity
    have hscaled (c : ℤ) : (c : ℚ) * 2 ^ (-j : ℤ) = c / (2 ^ j : ℕ) := by
      rw [zpow_neg, zpow_natCast, ← div_eq_mul_inv]
      push_cast
      rfl
    have hrest : (k : ℚ) * 2 ^ (-j : ℤ) - ⌊(k : ℚ) * 2 ^ (-j : ℤ)⌋ =
        (k % 2 ^ j : ℤ) * 2 ^ (-j : ℤ) := by
      rw [hscaled, hscaled, ← Int.fract, Int.fract_div_intCast_eq_div_intCast_mod, Nat.cast_pow]
      rfl
    rw [hrest]
    refine isRepresentable_mul_zpow (natAbs_emod_two_pow_lt hbits (hq.imp ?_ ?_)) hlow hhigh
    · intro hq
      exact_mod_cast nonneg_of_mul_nonneg_left hq (by positivity)
    · intro hq
      rw [hscaled, Nat.cast_pow, Nat.cast_ofNat, div_le_iff₀ hunit] at hq
      have hdouble : (2 : ℚ) * k ≤ -2 ^ j := by linarith
      exact_mod_cast hdouble

/-! ### The ways of rounding -/

theorem value?_ofNat {n : ℕ} (hn : n < 2 ^ 53) : value? (Scalar.ofNat n : Float) = some (n : ℚ) :=
  value?_nearest hn

theorem value?_half : value? (Scalar.ofNat 1 / Scalar.ofNat 2 : Float) = some (1 / 2) := by
  decide +kernel

/-- A whole number of at most 53 bits is halved and doubled without a rounding. -/
theorem value?_unpaired {n : ℤ} (h : value? x = some (n : ℚ)) (hn : n.natAbs < 2 ^ 53) :
    value? (Scalar.unpaired x) = some (Scalar.unpaired (n : ℚ)) := by
  have htwo : value? (Scalar.ofNat 2 : Float) = some 2 := value?_ofNat (by decide)
  have hhalf : IsRepresentable ((n : ℚ) / 2) := by
    have hvalue := isRepresentable_mul_zpow hn (e := -1) (by decide) (by decide)
    rwa [zpow_neg_one, ← div_eq_mul_inv] at hvalue
  have hpairs := value?_trunc (value?_div h htwo two_ne_zero hhalf)
  have hcount : (n.tdiv 2).natAbs = n.natAbs / 2 := Int.natAbs_tdiv n 2
  have hleft : (n - 2 * n.tdiv 2).natAbs = n.natAbs % 2 := by
    rw [← Int.tmod_def]
    exact Int.natAbs_tmod n 2
  rw [Scalar.trunc_half] at hpairs
  have hdouble : IsRepresentable (2 * (n.tdiv 2 : ℤ)) := by
    exact_mod_cast isRepresentable_intCast (k := 2 * n.tdiv 2) (by omega)
  have hrest : IsRepresentable ((n : ℚ) - 2 * (n.tdiv 2 : ℤ)) := by
    exact_mod_cast isRepresentable_intCast (k := n - 2 * n.tdiv 2) (by omega)
  have hvalue := value?_sub h (value?_mul htwo hpairs hdouble) hrest
  rw [← Scalar.trunc_half] at hvalue
  exact hvalue

/-- Rounding goes the way that the value goes, if the difference that decides it is exact. -/
theorem value?_roundHalfEven_of_exact (h : value? x = some q)
    (hrest : value? (x - floor x) = some (q - ⌊q⌋)) :
    value? (Scalar.roundHalfEven x) = some (Scalar.roundHalfEven q) := by
  have hbelow : value? (Scalar.floor x) = some (⌊q⌋ : ℚ) := value?_floor h
  have habove : Scalar.ofNat 1 / Scalar.ofNat 2 < x - Scalar.floor x ↔ 1 / 2 < q - ⌊q⌋ :=
    lt_iff_of_value? value?_half hrest
  have hless : x - Scalar.floor x < Scalar.ofNat 1 / Scalar.ofNat 2 ↔ q - ⌊q⌋ < 1 / 2 :=
    lt_iff_of_value? hrest value?_half
  rcases floor_eq_or_natAbs_lt h with hwhole | ⟨hfloor, hnext⟩
  · have hlt : q - ⌊q⌋ < 1 / 2 := by
      rw [hwhole, sub_self]
      norm_num
    rw [Scalar.roundHalfEven_of_lt (mt habove.1 hlt.not_gt) (hless.2 hlt),
      Scalar.roundHalfEven_of_lt hlt.not_gt hlt]
    exact hbelow
  · have hup : value? (Scalar.floor x + Scalar.ofNat 1) = some ((⌊q⌋ : ℚ) + 1) :=
      value?_add hbelow (value?_ofNat (by decide))
        (by exact_mod_cast isRepresentable_intCast hnext)
    rcases lt_trichotomy (q - ⌊q⌋) (1 / 2) with hlt | htie | hgt
    · rw [Scalar.roundHalfEven_of_lt (mt habove.1 hlt.not_gt) (hless.2 hlt),
        Scalar.roundHalfEven_of_lt hlt.not_gt hlt]
      exact hbelow
    · rw [Scalar.roundHalfEven_of_tie (mt habove.1 htie.le.not_gt) (mt hless.1 htie.ge.not_gt),
        Scalar.roundHalfEven_of_tie htie.le.not_gt htie.ge.not_gt]
      have hpairs : (Scalar.unpaired (Scalar.floor x) == Scalar.ofNat 0) = true ↔
          (Scalar.unpaired (⌊q⌋ : ℚ) == Scalar.ofNat 0) = true :=
        (beq_iff_of_value? (value?_unpaired hbelow hfloor) (value?_ofNat (by decide))).trans
          beq_iff_eq.symm
      by_cases hodd : (Scalar.unpaired (⌊q⌋ : ℚ) == Scalar.ofNat 0) = true
      · rw [if_pos (hpairs.2 hodd)]
        exact hbelow.trans (congrArg some (if_pos hodd).symm)
      · rw [if_neg (mt hpairs.1 hodd)]
        exact hup.trans (congrArg some (if_neg hodd).symm)
    · rw [Scalar.roundHalfEven_of_gt (habove.2 hgt), Scalar.roundHalfEven_of_gt hgt]
      exact hup

/-- A value that is at least a half and less than one is rounded to a number that is no less. -/
theorem exists_value?_nearest_of_half {n d : ℕ} (hd : 0 < d) (hlow : (1 / 2 : ℚ) ≤ n / d)
    (hhigh : (n : ℚ) / d < 1) : ∃ r : ℚ, value? (nearest false n d) = some r ∧ 1 / 2 ≤ r := by
  have hn : 0 < n := by
    rw [Nat.pos_iff_ne_zero]
    rintro rfl
    norm_num at hlow
  have hunit : (2 : ℚ) ^ (-53 : ℤ) = 1 / 2 ^ 53 := by
    rw [zpow_neg, one_div]
    rfl
  have hscaled : (n : ℚ) / d / 2 ^ (-53 : ℤ) = n / d * 2 ^ 53 := by
    rw [hunit, div_div_eq_mul_div, div_one]
  have hfull : ((2 ^ 52 : ℕ) : ℚ) ≤ n / d * 2 ^ 53 := by
    push_cast
    linarith
  have hroom : (n : ℚ) / d * 2 ^ 53 < (2 ^ 53 : ℕ) := by
    push_cast
    linarith
  have hexponent : max (Int.log 2 ((n : ℚ) / d) - 52) leastExponent = -53 := by
    have hvalue : (n : ℚ) / d = n / d * 2 ^ 53 * 2 ^ (-53 : ℤ) := by
      rw [← hscaled, div_mul_cancel₀ _ (by positivity)]
    rw [hvalue]
    exact max_log_eq (by positivity) (by decide) (.inr (by exact_mod_cast hfull))
      (by exact_mod_cast hroom)
  have hrounded := value?_nearest_eq_roundEven false hn hd hexponent (by decide)
  rw [cond_false, one_mul] at hrounded
  refine ⟨_, hrounded, ?_⟩
  have hmantissa : (2 : ℚ) ^ 52 ≤ roundEven (n / d / 2 ^ (-53 : ℤ)) := by
    rw [hscaled]
    exact_mod_cast natCast_le_roundEven hfull
  rw [hunit] at hmantissa ⊢
  linarith

/-- A small negative number is rounded to zero. -/
theorem value?_roundHalfEven_of_small (h : value? x = some q) (hlow : -1 / 2 < q) (hneg : q < 0) :
    value? (Scalar.roundHalfEven x) = some (Scalar.roundHalfEven q) := by
  have hfloor : ⌊q⌋ = -1 := by
    rw [Int.floor_eq_iff]
    push_cast
    constructor <;> linarith
  have hbelow : value? (Scalar.floor x) = some ((-1 : ℤ) : ℚ) := hfloor ▸ value?_floor h
  have hzero : Scalar.roundHalfEven q = ((0 : ℤ) : ℚ) := by
    rw [Scalar.roundHalfEven_eq_iff]
    refine .of_lt ?_
    rw [Int.cast_zero, sub_zero, abs_lt]
    constructor <;> linarith
  have hup : value? (Scalar.floor x + Scalar.ofNat 1) = some (Scalar.roundHalfEven q) := by
    have hsum := value?_add hbelow (value?_ofNat (n := 1) (by decide))
      (by exact_mod_cast isRepresentable_intCast (k := 0) (by decide))
    rw [hsum, hzero]
    norm_num
  have hrest : ¬ x - Scalar.floor x < Scalar.ofNat 1 / Scalar.ofNat 2 := by
    obtain ⟨n, d, hd, hvalue⟩ :=
      exists_natCast_div_eq (show 0 ≤ q - (-1 : ℤ) by push_cast; linarith)
    have hnearest : x - Scalar.floor x = nearest false n d :=
      sub_eq_nearest h hbelow hneg.ne (by norm_num) (by push_cast; linarith) hd hvalue
    obtain ⟨r, hr, hle⟩ := exists_value?_nearest_of_half hd
      (by rw [hvalue]; push_cast; linarith) (by rw [hvalue]; push_cast; linarith)
    rw [hnearest, lt_iff_of_value? hr value?_half]
    exact not_lt.2 hle
  by_cases habove : Scalar.ofNat 1 / Scalar.ofNat 2 < x - Scalar.floor x
  · rw [Scalar.roundHalfEven_of_gt habove]
    exact hup
  · have hodd : ¬ (Scalar.unpaired (Scalar.floor x) == Scalar.ofNat 0) = true := by
      rw [beq_iff_of_value? (value?_unpaired hbelow (by decide)) (value?_ofNat (by decide)),
        Scalar.unpaired_intCast, Nat.cast_zero, Int.cast_eq_zero]
      decide
    rw [Scalar.roundHalfEven_of_tie habove hrest, if_neg hodd]
    exact hup

theorem value?_roundHalfEven (h : value? x = some q) :
    value? (Scalar.roundHalfEven x) = some (Scalar.roundHalfEven q) := by
  by_cases hsmall : -1 / 2 < q ∧ q < 0
  · exact value?_roundHalfEven_of_small h hsmall.1 hsmall.2
  · have hexact : 0 ≤ q ∨ q ≤ -1 / 2 := by
      by_contra hnone
      push Not at hnone
      exact hsmall ⟨hnone.2, hnone.1⟩
    exact value?_roundHalfEven_of_exact h
      (value?_sub h (value?_floor h) (isRepresentable_sub_floor h hexact))

end Ventilation.Binary64
