import Ventilation.Proofs.Number.Nonneg
import Ventilation.Proofs.Quote.Rounding
import Ventilation.Quote.Item

/-!
# Amounts that are made

A percentage of at most 100 has a hundredth part of at most one, however its division is carried on
and its zeros are taken out. A number that is not negative and has a decimal is a decimal that is
not negative.
-/

set_option autoImplicit false
set_option relaxedAutoImplicit false

namespace Ventilation

namespace Decimal

/-! ### Hundredth parts -/

/-- A coefficient and a scale of a decimal that is at most one. -/
structure IsPart (amount : ℕ × ℕ) : Prop where
  le_one : amount.1 ≤ 10 ^ amount.2
  scale_le : amount.2 ≤ maxScale

theorem isPart_divideOn {quotient remainder scale : ℕ}
    (h : 100 * quotient + remainder ≤ 100 * 10 ^ scale) (hscale : scale ≤ maxScale) :
    IsPart (divideOn quotient remainder scale) := by
  fun_induction divideOn quotient remainder scale with
  | case1 quotient scale => exact ⟨by change quotient ≤ 10 ^ scale; omega, hscale⟩
  | case2 quotient remainder scale hremainder fits k hfind ih =>
    have hk := List.find?_some hfind
    simp only [Bool.and_eq_true, decide_eq_true_eq, fits] at hk
    refine ih ?_ hk.1
    have hdigits := Nat.div_add_mod (remainder * tenTo k) 100
    calc 100 * (quotient * tenTo k + remainder * tenTo k / 100) + remainder * tenTo k % 100 =
          (100 * quotient + remainder) * tenTo k := by rw [Nat.add_mul, Nat.mul_assoc]; omega
      _ ≤ 100 * 10 ^ scale * tenTo k := Nat.mul_le_mul_right _ h
      _ = 100 * 10 ^ (scale + k) := by rw [Nat.mul_assoc, Nat.pow_add]; rfl
  | case3 quotient remainder scale hremainder fits hfind =>
    have hrounded : divideToEven (quotient * 100 + remainder) 100 ≤ 10 ^ scale :=
      (divideToEven_le_iff (by decide)).2 (.inl (by omega))
    exact ⟨hrounded, hscale⟩

/-- A part stays one when zeros are taken out at its end. -/
theorem isPart_div {coefficient scale count : ℕ} (h : IsPart (coefficient, scale))
    (hcount : count ≤ scale) : IsPart (coefficient / tenTo count, scale - count) where
  le_one := by
    apply Nat.div_le_of_le_mul
    change coefficient ≤ 10 ^ count * 10 ^ (scale - count)
    rw [← Nat.pow_add, Nat.add_sub_cancel' hcount]
    exact h.le_one
  scale_le := (Nat.sub_le _ _).trans h.scale_le

theorem isPart_dropZeros {amount : ℕ × ℕ} (h : IsPart amount) (count : ℕ) :
    IsPart (dropZeros count amount) := by
  unfold dropZeros
  split
  · next hcount =>
    rw [Bool.and_eq_true, decide_eq_true_eq] at hcount
    exact isPart_div h hcount.1
  · exact h

theorem isPart_dropEights {coefficient scale : ℕ} (h : IsPart (coefficient, scale)) :
    IsPart (dropEights coefficient scale) := by
  fun_induction dropEights coefficient scale with
  | case1 coefficient scale hzeros ih => exact ih (isPart_div h hzeros.1)
  | case2 => exact h

/-- A decimal from 0 to 100. -/
structure IsPercentage (a : Decimal) : Prop extends a.IsAmount where
  le_hundred : a.value ≤ 100

theorem isAmount_of_isPart {n c s : ℕ} (hn : 0 < n) (h : IsPart (c, s)) :
    (⟨withSign n c, s⟩ : Decimal).IsAmount ∧ (⟨withSign n c, s⟩ : Decimal).value ≤ 1 := by
  rw [withSign_natCast fun hzero ↦ absurd hzero hn.ne']
  have hpow : 10 ^ s ≤ 10 ^ maxScale := Nat.pow_le_pow_right (by decide) h.scale_le
  have hlimit : c < limit := Nat.lt_of_le_of_lt (h.le_one.trans hpow) (by decide)
  refine ⟨⟨Int.natCast_nonneg _, Int.ofNat_lt.2 hlimit, h.scale_le⟩, ?_⟩
  have hle : c ≤ 10 ^ s := h.le_one
  rw [value_le_iff, one_mul]
  change ((c : ℤ) : ℚ) ≤ 10 ^ s
  exact_mod_cast hle

theorem IsPercentage.hundredth {a : Decimal} (h : a.IsPercentage) :
    a.hundredth.IsAmount ∧ a.hundredth.value ≤ 1 := by
  obtain ⟨n, hn⟩ := Int.eq_ofNat_of_zero_le h.nonneg
  have hle : n ≤ 100 * 10 ^ a.scale := by
    have := value_le_iff.1 h.le_hundred
    rw [hn] at this
    exact_mod_cast this
  unfold Decimal.hundredth
  simp only [hn, Int.natAbs_natCast]
  split
  · exact ⟨isRounded_zero.isAmount, value_zero.trans_le zero_le_one⟩
  · next hpos =>
    split
    · refine isAmount_of_isPart (Nat.pos_of_ne_zero hpos) ⟨?_, h.scale_le⟩
      exact Nat.div_le_of_le_mul hle
    · have hdivided : IsPart (divideOn (n / 100) (n % 100) a.scale) :=
        isPart_divideOn (by rwa [Nat.div_add_mod]) h.scale_le
      have hdropped := isPart_dropZeros (isPart_dropZeros (isPart_dropZeros
        (isPart_dropEights hdivided) 4) 2) 1
      exact isAmount_of_isPart (Nat.pos_of_ne_zero hpos) hdropped

/-! ### Binary numbers as decimals -/

theorem absorbFives_lt {coefficient : ℕ} (h : coefficient < limit) (tens : ℤ) (fives : ℕ) :
    (absorbFives coefficient tens fives).1 < limit := by
  fun_induction absorbFives coefficient tens fives with
  | case1 => exact h
  | case2 _ _ _ _ ih => exact ih (by omega)
  | case3 _ _ _ _ hroom ih => exact ih hroom
  | case4 _ _ _ _ _ ih => exact ih (by omega)

theorem cancelFives_lt {coefficient : ℕ} (h : coefficient < limit) (tens : ℤ) (fives : ℕ) :
    (cancelFives coefficient tens fives).1 < limit := by
  have hdouble : limit = 2 * twoTo 95 := rfl
  fun_induction cancelFives coefficient tens fives with
  | case1 => exact h
  | case2 _ _ _ hroom ih => exact ih (by omega)
  | case3 _ _ _ _ ih => exact ih (by omega)

theorem absorbTens?_lt {coefficient c tens : ℕ} (h : coefficient < limit)
    (hc : absorbTens? coefficient tens = some c) : c < limit := by
  fun_induction absorbTens? coefficient tens with
  | case1 => exact Option.some.inj hc ▸ h
  | case2 _ _ hroom ih => exact ih hroom hc
  | case3 => cases hc

theorem dropDigit_le (coefficient : ℕ) : dropDigit coefficient ≤ coefficient := by
  unfold dropDigit
  split <;> omega

theorem dropSurplus_le (coefficient scale : ℕ) :
    (dropSurplus coefficient scale).1 ≤ coefficient ∧
      (dropSurplus coefficient scale).2 ≤ maxScale := by
  fun_induction dropSurplus coefficient scale with
  | case1 => exact ⟨Nat.zero_le _, Nat.zero_le _⟩
  | case2 _ _ _ _ ih => exact ⟨ih.1.trans (dropDigit_le _), ih.2⟩
  | case3 _ _ hscale => exact ⟨le_rfl, Nat.le_of_not_lt hscale⟩

theorem dropDoubtful_le (coefficient scale : ℕ) :
    (dropDoubtful coefficient scale).1 ≤ coefficient ∧
      (dropDoubtful coefficient scale).2 ≤ scale := by
  fun_induction dropDoubtful coefficient scale with
  | case1 => exact ⟨le_rfl, le_rfl⟩
  | case2 _ _ _ ih => exact ⟨ih.1.trans (dropDigit_le _), ih.2.trans (Nat.le_succ _)⟩
  | case3 => exact ⟨le_rfl, le_rfl⟩

theorem dropTrailing_le (coefficient scale : ℕ) :
    (dropTrailing coefficient scale).1 ≤ coefficient ∧
      (dropTrailing coefficient scale).2 ≤ scale := by
  fun_induction dropTrailing coefficient scale with
  | case1 => exact ⟨le_rfl, le_rfl⟩
  | case2 _ _ _ ih => exact ⟨ih.1.trans (Nat.div_le_self _ _), ih.2.trans (Nat.le_succ _)⟩
  | case3 => exact ⟨le_rfl, le_rfl⟩

/-- An amount without the decimals that are too many, doubtful, or zeros at the end. -/
def dropped (coefficient scale : ℕ) : Decimal :=
  let surplus := dropSurplus coefficient scale
  let doubtful := dropDoubtful surplus.1 surplus.2
  let trailing := dropTrailing doubtful.1 doubtful.2
  ⟨trailing.1, trailing.2⟩

/-- Dropping decimals leaves an amount. -/
theorem isAmount_dropped {coefficient : ℕ} (h : coefficient < limit) (scale : ℕ) :
    (dropped coefficient scale).IsAmount := by
  obtain ⟨hsurplus, hscale⟩ := dropSurplus_le coefficient scale
  simp only [dropped]
  generalize dropSurplus coefficient scale = surplus at hsurplus hscale ⊢
  obtain ⟨hdoubtful, hscale'⟩ := dropDoubtful_le surplus.1 surplus.2
  generalize dropDoubtful surplus.1 surplus.2 = doubtful at hdoubtful hscale' ⊢
  obtain ⟨htrailing, hscale''⟩ := dropTrailing_le doubtful.1 doubtful.2
  have hcoefficient := htrailing.trans (hdoubtful.trans hsurplus)
  exact ⟨Int.natCast_nonneg _, Int.ofNat_lt.2 (Nat.lt_of_le_of_lt hcoefficient h),
    hscale''.trans (hscale'.trans hscale)⟩

/-- A decimal that has decimals has at most 52 bits. -/
def IsShort (a : Decimal) : Prop := a.scale = 0 ∨ a.coefficient < twoTo 52

theorem dropDoubtful_short (coefficient scale : ℕ) :
    (dropDoubtful coefficient scale).2 = 0 ∨ (dropDoubtful coefficient scale).1 < twoTo 52 := by
  fun_induction dropDoubtful coefficient scale with
  | case1 => exact .inl rfl
  | case2 _ _ _ ih => exact ih
  | case3 _ _ hlt => exact .inr (Nat.lt_of_not_le hlt)

theorem isShort_dropped (coefficient scale : ℕ) : (dropped coefficient scale).IsShort := by
  simp only [dropped, IsShort]
  generalize dropSurplus coefficient scale = surplus
  have hshort := dropDoubtful_short surplus.1 surplus.2
  generalize dropDoubtful surplus.1 surplus.2 = doubtful at hshort ⊢
  obtain ⟨htrailing, hscale⟩ := dropTrailing_le doubtful.1 doubtful.2
  rcases hshort with hwhole | hlt
  · exact .inl (Nat.le_zero.1 (hscale.trans hwhole.le))
  · exact .inr (Int.ofNat_lt.2 (Nat.lt_of_le_of_lt htrailing hlt))

theorem mantissa_lt_limit {negative : Bool} {mantissa : ℕ} {exponent : ℤ}
    (h : (Binary64.Parts.finite negative mantissa exponent).IsCanonical) : mantissa < limit :=
  Nat.lt_of_lt_of_le h.1 (Nat.pow_le_pow_right (by decide) (by decide))

/-- A number that is not negative has the decimal zero or one with decimals dropped. -/
theorem eq_zero_or_dropped {x : Float} {a : Decimal} (hx : 0 ≤ Binary64.place x)
    (h : ofFloat? x = some a) :
    a = zero ∨ ∃ coefficient < limit, ∃ scale, a = dropped coefficient scale := by
  have hcanonical := Binary64.isCanonical_parts x
  unfold Binary64.place at hx
  unfold ofFloat? at h
  cases hparts : Binary64.parts x with
  | nan =>
    rw [hparts] at h
    cases h
  | infinite negative =>
    rw [hparts] at h
    cases h
  | finite negative mantissa exponent =>
    rw [hparts] at h hx hcanonical
    simp only at h
    split at h
    · exact .inl (Option.some.inj h).symm
    · next hmantissa =>
      have hpositive : negative = false := by
        cases negative with
        | false => rfl
        | true => exact absurd (Binary64.mantissa_eq_zero_of_place_nonneg hcanonical hx) hmantissa
      have hfives : (if exponent < 0 then absorbFives mantissa exponent exponent.natAbs
          else cancelFives mantissa exponent exponent.natAbs).1 < limit := by
        split
        · exact absorbFives_lt (mantissa_lt_limit hcanonical) _ _
        · exact cancelFives_lt (mantissa_lt_limit hcanonical) _ _
      obtain ⟨c, hc, rfl⟩ := Option.map_eq_some_iff.1 h
      rw [if_neg (by rw [hpositive]; exact Bool.false_ne_true)]
      exact .inr ⟨c, absorbTens?_lt hfives hc, _, rfl⟩

/-- The decimal of a number that is not negative. -/
theorem isAmount_ofFloat? {x : Float} {a : Decimal} (hx : 0 ≤ Binary64.place x)
    (h : ofFloat? x = some a) : a.IsAmount := by
  rcases eq_zero_or_dropped hx h with rfl | ⟨coefficient, hlt, scale, rfl⟩
  · exact isRounded_zero.isAmount
  · exact isAmount_dropped hlt scale

theorem isShort_ofFloat? {x : Float} {a : Decimal} (hx : 0 ≤ Binary64.place x)
    (h : ofFloat? x = some a) : a.IsShort := by
  rcases eq_zero_or_dropped hx h with rfl | ⟨coefficient, -, scale, rfl⟩
  · exact .inl rfl
  · exact isShort_dropped coefficient scale

theorem divideToEven_le_self {n d : ℕ} (hd : 0 < d) : divideToEven n d ≤ n := by
  rw [divideToEven_le_iff hd]
  left
  calc 2 * n < (2 * n + 1) * 1 := by omega
    _ ≤ (2 * n + 1) * d := Nat.mul_le_mul_left _ hd

/-- Rounding to fewer places keeps an amount one, and does not make its coefficient larger. -/
theorem roundTo_le {a : Decimal} (h : a.IsAmount) (places : ℕ) :
    (a.roundTo places).IsAmount ∧ (a.roundTo places).coefficient ≤ a.coefficient := by
  unfold roundTo
  split
  · exact ⟨h, le_rfl⟩
  · next hplaces =>
    obtain ⟨n, hn⟩ := Int.eq_ofNat_of_zero_le h.nonneg
    have hlimit : n < limit := Int.ofNat_lt.1 (hn ▸ h.lt_limit)
    have hle : divideToEven n (tenTo (a.scale - places)) ≤ n :=
      divideToEven_le_self (Nat.pow_pos (by decide))
    rw [hn, Int.natAbs_natCast, withSign_natCast fun hzero ↦ Nat.le_zero.1 (hzero ▸ hle)]
    exact ⟨⟨Int.natCast_nonneg _, Int.ofNat_lt.2 (Nat.lt_of_le_of_lt hle hlimit),
      (Nat.le_of_not_le hplaces).trans h.scale_le⟩, Int.ofNat_le.2 hle⟩

theorem scale_roundTo (a : Decimal) (places : ℕ) :
    (a.roundTo places).scale = min a.scale places := by
  unfold roundTo
  split
  · next hplaces => exact (Nat.min_eq_left hplaces).symm
  · next hplaces => exact (Nat.min_eq_right (Nat.le_of_not_le hplaces)).symm

theorem isShort_roundTo {a : Decimal} (h : a.IsAmount) (hshort : a.IsShort) (places : ℕ) :
    (a.roundTo places).IsShort := by
  unfold IsShort
  rw [scale_roundTo]
  rcases hshort with hwhole | hlt
  · exact .inl (by rw [hwhole, Nat.zero_min])
  · exact .inr ((roundTo_le h places).2.trans_lt hlt)

/-! ### Whole numbers as decimals -/

theorem absorbFives_whole (n : ℕ) (tens : ℤ) (fives : ℕ) :
    absorbFives (n * 2 ^ fives) tens fives = (n, tens + fives) := by
  induction fives generalizing tens with
  | zero => simp [absorbFives]
  | succ fives ih =>
    have heven : n * 2 ^ (fives + 1) = n * 2 ^ fives * 2 := by rw [pow_succ, mul_assoc]
    rw [absorbFives, heven, Nat.mul_mod_left, if_pos rfl, Nat.mul_div_cancel _ two_pos, ih]
    push_cast
    rw [add_assoc, add_comm 1]

theorem cancelFives_whole {n fives : ℕ} (h : n * 2 ^ fives < limit) (tens : ℤ) :
    cancelFives n tens fives = (n * 2 ^ fives, tens - fives) := by
  induction fives generalizing n tens with
  | zero => simp [cancelFives]
  | succ fives ih =>
    have hdouble : n * 2 ^ (fives + 1) = n * 2 * 2 ^ fives := by rw [pow_succ]; ring
    have hroom : n < twoTo 95 := by
      have hpow : n * 2 ^ 1 ≤ n * 2 ^ (fives + 1) :=
        Nat.mul_le_mul_left n (Nat.pow_le_pow_right two_pos (by omega))
      have hlimit : limit = twoTo 95 * 2 := rfl
      omega
    rw [hdouble] at h ⊢
    rw [cancelFives, if_pos hroom, ih h]
    push_cast
    rw [sub_sub, add_comm (1 : ℤ)]

theorem dropped_whole (n : ℕ) : dropped n 0 = ofInt n := by
  have hsurplus : dropSurplus n 0 = (n, 0) := by
    rw [dropSurplus, dif_neg (Nat.not_lt_zero _)]
  simp only [dropped, hsurplus, dropDoubtful, dropTrailing, ofInt]

/-- The decimal of a whole number is exact. -/
theorem ofFloat?_of_whole {x : Float} {n : ℕ} (hx : Binary64.value? x = some (n : ℚ))
    (hn : n < limit) : ofFloat? x = some (ofInt n) := by
  obtain ⟨negative, mantissa, exponent, hparts, hvalue, hsign⟩ :=
    Binary64.exists_parts_of_value? hx
  have hwhole := Binary64.natCast_eq_mul_zpow_iff.1 hvalue
  unfold ofFloat?
  rw [hparts]
  simp only
  by_cases hmantissa : mantissa = 0
  · rw [hmantissa, Nat.cast_zero, zero_mul] at hvalue
    rw [if_pos hmantissa, Nat.cast_eq_zero.1 hvalue]
    rfl
  · have hpositive : negative = false := by
      rw [← Bool.not_eq_true]
      exact fun hnegative ↦ hmantissa (hsign hnegative)
    have hfives : (if exponent < 0 then absorbFives mantissa exponent exponent.natAbs
        else cancelFives mantissa exponent exponent.natAbs) = (n, 0) := by
      split
      · next hexponent =>
        have hunit : exponent.toNat = 0 := Int.toNat_of_nonpos hexponent.le
        have hscale : (-exponent).toNat = exponent.natAbs := by omega
        rw [hunit, hscale] at hwhole
        change mantissa * 1 = n * 2 ^ exponent.natAbs at hwhole
        rw [← mul_one mantissa, hwhole, absorbFives_whole, Prod.mk.injEq]
        exact ⟨rfl, by omega⟩
      · next hexponent =>
        have hunit : (-exponent).toNat = 0 := by omega
        have hscale : exponent.toNat = exponent.natAbs := by omega
        rw [hunit, hscale] at hwhole
        change mantissa * 2 ^ exponent.natAbs = n * 1 at hwhole
        rw [mul_one] at hwhole
        rw [cancelFives_whole (hwhole.trans_lt hn), hwhole, Prod.mk.injEq]
        exact ⟨rfl, by omega⟩
    rw [if_neg hmantissa, hfives, hpositive]
    exact congrArg some (dropped_whole n)

end Decimal

theorem exists_of_money {x : Float} {a : Decimal} (h : money x = .ok a) :
    ∃ d, Decimal.ofFloat? x = some d ∧ a = d.roundTo 2 := by
  unfold money at h
  cases hd : Decimal.ofFloat? x with
  | none =>
    rw [hd] at h
    cases h
  | some d =>
    rw [hd] at h
    exact ⟨d, rfl, (Except.ok.inj h).symm⟩

theorem isAmount_money {x : Float} {a : Decimal} (hx : 0 ≤ Binary64.place x)
    (h : money x = .ok a) : a.IsAmount := by
  obtain ⟨d, hd, rfl⟩ := exists_of_money h
  exact (Decimal.roundTo_le (Decimal.isAmount_ofFloat? hx hd) 2).1

theorem isShort_money {x : Float} {a : Decimal} (hx : 0 ≤ Binary64.place x)
    (h : money x = .ok a) : a.IsShort ∧ a.scale ≤ 2 := by
  obtain ⟨d, hd, rfl⟩ := exists_of_money h
  have hamount := Decimal.isAmount_ofFloat? hx hd
  exact ⟨Decimal.isShort_roundTo hamount (Decimal.isShort_ofFloat? hx hd) 2,
    (d.scale_roundTo 2).trans_le (Nat.min_le_right _ _)⟩

theorem money_of_whole {x : Float} {n : ℕ} (hx : Binary64.value? x = some (n : ℚ))
    (hn : n < Decimal.limit) : money x = .ok (Decimal.ofInt n) := by
  unfold money
  rw [Decimal.ofFloat?_of_whole hx hn]
  rfl

end Ventilation
