import Ventilation.Proofs.Number.Range
import Ventilation.Proofs.Number.Representable

/-!
# Operations without a rounding

A sum, a difference, a product or a quotient that is the value of a number is that number:
`value?_add`, `value?_sub`, `value?_mul` and `value?_div`. A sum is taken at the lower one of two
exponents, where it is exact, and rounded once, `pack_normalize`. A quotient is otherwise the number
nearest to the exact one, which a rounding at full precision leaves close by:
`exists_div_eq_nearest` and `exists_value?_nearest_near`.
-/

set_option autoImplicit false
set_option relaxedAutoImplicit false

namespace Ventilation.Binary64

open Float.Model Float.Model.UnpackedFloat

variable {s t : Bool} {m n d : ℕ} {e f k : ℤ}

/-! ### Sums -/

/-- A mantissa is shifted to the left until it has the exponent of its value, and rounded there. -/
theorem pack_round (negative : Bool) (hm : 0 < m) (hd : 0 < d) (h : (n : ℚ) / d = m * 2 ^ e) :
    Float.ofModel (.pack (UnpackedFloat.round .binary64 (signOf negative) m e)) =
      nearest negative n d := by
  obtain ⟨shift, hshift⟩ : ∃ shift : ℕ,
      (e - Format.binary64.targetExponent (totalExponent m e)).toNat = shift := ⟨_, rfl⟩
  have hround : UnpackedFloat.round .binary64 (signOf negative) m e =
      roundWithAccuracy .binary64 (signOf negative) (m * 2 ^ shift) (e - shift) .exact := by
    rw [← hshift, ← Nat.shiftLeft_eq]
    rfl
  have hpos : 0 < m * 2 ^ shift := Nat.mul_pos hm (Nat.two_pow_pos _)
  have hlog : (m * 2 ^ shift).log2 = m.log2 + shift := by
    rw [Nat.log2_eq_iff hpos.ne', add_right_comm, pow_add, pow_add]
    exact ⟨Nat.mul_le_mul_right _ (Nat.log2_self_le hm.ne'),
      Nat.mul_lt_mul_of_pos_right Nat.lt_log2_self (Nat.two_pow_pos _)⟩
  rw [hround]
  refine pack_roundWithAccuracy (by exact_mod_cast hpos) (represents_exact _) (.inl hpos) ?_ hd ?_
  · rw [targetExponent_eq] at hshift ⊢
    rw [hlog]
    omega
  · rw [h, zpow_sub₀ two_ne_zero, zpow_natCast]
    push_cast
    field_simp

/-- A sum of whole numbers at one exponent. -/
theorem pack_normalize (hk : k ≠ 0) (hd : 0 < d) (h : (n : ℚ) / d = k.natAbs * 2 ^ e) :
    Float.ofModel (.pack (UnpackedFloat.normalize .binary64 k e .positive)) =
      nearest (decide (k < 0)) n d := by
  have hpos : 0 < k.natAbs := Int.natAbs_pos.2 hk
  unfold UnpackedFloat.normalize
  rcases lt_or_gt_of_ne hk with hlt | hgt
  · have hmagnitude : (-k).toNat = k.natAbs := by omega
    rw [Int.compare_eq_lt.2 hlt, hmagnitude, decide_eq_true hlt]
    exact pack_round true hpos hd h
  · have hmagnitude : k.toNat = k.natAbs := by omega
    rw [Int.compare_eq_gt.2 hgt, hmagnitude, decide_eq_false hgt.not_gt]
    exact pack_round false hpos hd h

theorem value?_pack_zero (sign : Sign) : value? (.ofModel (.pack (.zero sign))) = some 0 := by
  cases sign <;> decide +kernel

theorem value?_pack_normalize (h : IsRepresentable (k * 2 ^ e)) :
    value? (.ofModel (.pack (UnpackedFloat.normalize .binary64 k e .positive))) =
      some (k * 2 ^ e : ℚ) := by
  rcases eq_or_ne k 0 with rfl | hk
  · rw [Int.cast_zero, zero_mul]
    exact value?_pack_zero .positive
  · obtain ⟨n, d, hd, hvalue⟩ := exists_natCast_div_eq
      (show (0 : ℚ) ≤ k.natAbs * 2 ^ e by positivity)
    have hsigned : (k : ℚ) * 2 ^ e = (bif decide (k < 0) then -1 else 1) * (n / d) := by
      rw [hvalue]
      rcases lt_or_gt_of_ne hk with hlt | hgt
      · rw [decide_eq_true hlt, cond_true, ← Int.cast_natCast, Int.ofNat_natAbs_of_nonpos hlt.le]
        push_cast
        ring
      · rw [decide_eq_false hgt.not_gt, cond_false, ← Int.cast_natCast,
          Int.natAbs_of_nonneg hgt.le, one_mul]
    rw [hsigned] at h ⊢
    rw [pack_normalize hk hd hvalue]
    exact value?_nearest_of_isRepresentable _ hd h

theorem value?_pack_unpacked {p : Parts} (hp : p.IsCanonical) :
    value? (.ofModel (.pack p.unpacked)) = p.value? := by
  unfold value?
  rw [parts_ofModel_pack hp]

/-- The mantissas of a sum at the lower exponent. -/
theorem Parts.exists_add_eq_normalize (s t : Bool) (hm : m ≠ 0) (hn : n ≠ 0) (e f : ℤ) :
    ∃ k low : ℤ, (Parts.finite s m e).unpacked.add .binary64 (Parts.finite t n f).unpacked =
        UnpackedFloat.normalize .binary64 k low .positive ∧
      (k : ℚ) * 2 ^ low =
        (bif s then -1 else 1) * (m * 2 ^ e) + (bif t then -1 else 1) * (n * 2 ^ f) := by
  refine ⟨(signOf s).apply ((m <<< (e - min e f).toNat : ℕ) : ℤ) +
    (signOf t).apply ((n <<< (f - min e f).toNat : ℕ) : ℤ), min e f, ?_, ?_⟩
  · simp only [Parts.unpacked, hm, hn, ↓reduceDIte]
    rfl
  · rw [Int.cast_add, add_mul, apply_shiftLeft_mul s m (min_le_left e f),
      apply_shiftLeft_mul t n (min_le_right e f)]

/-- The value of a sum, a zero of either sign being left out of it. -/
theorem Parts.value?_add (hx : (Parts.finite s m e).IsCanonical)
    (hy : (Parts.finite t n f).IsCanonical)
    (h : IsRepresentable ((bif s then -1 else 1) * (m * 2 ^ e) +
      (bif t then -1 else 1) * (n * 2 ^ f))) :
    Binary64.value? (.ofModel (.pack ((Parts.finite s m e).unpacked.add .binary64
      (Parts.finite t n f).unpacked))) =
      some ((bif s then -1 else 1 : ℚ) * (m * 2 ^ e) +
        (bif t then -1 else 1) * (n * 2 ^ f)) := by
  by_cases hm : m = 0
  · subst hm
    rw [Nat.cast_zero, zero_mul, mul_zero, zero_add] at h ⊢
    by_cases hn : n = 0
    · subst hn
      rw [Nat.cast_zero, zero_mul, mul_zero]
      cases s <;> cases t <;> exact value?_pack_zero _
    · have hsum : (Parts.finite s 0 e).unpacked.add .binary64 (Parts.finite t n f).unpacked =
          (Parts.finite t n f).unpacked := by
        simp only [Parts.unpacked, hn, ↓reduceDIte]
        rfl
      rw [hsum]
      exact value?_pack_unpacked hy
  · by_cases hn : n = 0
    · subst hn
      rw [Nat.cast_zero, zero_mul, mul_zero, add_zero] at h ⊢
      have hsum : (Parts.finite s m e).unpacked.add .binary64 (Parts.finite t 0 f).unpacked =
          (Parts.finite s m e).unpacked := by
        simp only [Parts.unpacked, hm, ↓reduceDIte]
        rfl
      rw [hsum]
      exact value?_pack_unpacked hx
    · obtain ⟨k, low, hsum, hvalue⟩ := Parts.exists_add_eq_normalize s t hm hn e f
      rw [← hvalue] at h ⊢
      rw [hsum]
      exact value?_pack_normalize h

/-- A difference is the sum with the other sign. -/
theorem Parts.sub_unpacked (s t : Bool) (m n : ℕ) (e f : ℤ) :
    (Parts.finite s m e).unpacked.sub .binary64 (Parts.finite t n f).unpacked =
      (Parts.finite s m e).unpacked.add .binary64 (Parts.finite (!t) n f).unpacked := by
  by_cases hn : n = 0
  · by_cases hm : m = 0 <;> simp only [Parts.unpacked, hm, hn, ↓reduceDIte]
    · cases s <;> cases t <;> rfl
    · rfl
  · by_cases hm : m = 0 <;> simp only [Parts.unpacked, hm, hn, ↓reduceDIte]
    · cases t <;> rfl
    · have hnegated (k : ℤ) : (signOf (!t)).apply k = -(signOf t).apply k := by
        cases t
        · rfl
        · exact (neg_neg k).symm
      simp only [UnpackedFloat.sub, UnpackedFloat.add, decreaseExponent, hnegated, sub_eq_add_neg]

section

variable {x y : Float} {p q : ℚ}

theorem value?_add (hx : value? x = some p) (hy : value? y = some q)
    (h : IsRepresentable (p + q)) : value? (x + y) = some (p + q) := by
  obtain ⟨s, m, e, hxparts, rfl⟩ := exists_parts hx
  obtain ⟨t, n, f, hyparts, rfl⟩ := exists_parts hy
  have hadd : x + y = .ofModel (.pack ((parts x).unpacked.add .binary64 (parts y).unpacked)) := by
    rw [← unpack_toModel, ← unpack_toModel]
    rfl
  rw [hadd, hxparts, hyparts]
  exact Parts.value?_add (hxparts ▸ isCanonical_parts x) (hyparts ▸ isCanonical_parts y) h

theorem sub_eq_ofModel (x y : Float) :
    x - y = .ofModel (.pack ((parts x).unpacked.sub .binary64 (parts y).unpacked)) := by
  rw [← unpack_toModel, ← unpack_toModel]
  rfl

theorem neg_sign (t : Bool) (a : ℚ) :
    -((bif t then -1 else 1) * a) = (bif !t then -1 else 1) * a := by
  cases t <;> simp

theorem value?_sub (hx : value? x = some p) (hy : value? y = some q)
    (h : IsRepresentable (p - q)) : value? (x - y) = some (p - q) := by
  obtain ⟨s, m, e, hxparts, rfl⟩ := exists_parts hx
  obtain ⟨t, n, f, hyparts, rfl⟩ := exists_parts hy
  have hcanonical : (Parts.finite (!t) n f).IsCanonical :=
    show (Parts.finite t n f).IsCanonical from hyparts ▸ isCanonical_parts y
  rw [sub_eq_add_neg, neg_sign] at h ⊢
  rw [sub_eq_ofModel, hxparts, hyparts, Parts.sub_unpacked]
  exact Parts.value?_add (hxparts ▸ isCanonical_parts x) hcanonical h

/-- A positive difference is the number nearest to the exact one. -/
theorem sub_eq_nearest (hx : value? x = some p) (hy : value? y = some q) (hp : p ≠ 0) (hq : q ≠ 0)
    (hlt : q < p) (hd : 0 < d) (h : (n : ℚ) / d = p - q) : x - y = nearest false n d := by
  obtain ⟨s, m, e, hxparts, rfl⟩ := exists_parts hx
  obtain ⟨t, k, f, hyparts, rfl⟩ := exists_parts hy
  have hm : m ≠ 0 := by
    rintro rfl
    simp at hp
  have hk : k ≠ 0 := by
    rintro rfl
    simp at hq
  obtain ⟨c, low, hsum, hvalue⟩ := Parts.exists_add_eq_normalize s (!t) hm hk e f
  rw [← neg_sign, ← sub_eq_add_neg] at hvalue
  have hpos : 0 < c := by
    have hscaled : 0 < (c : ℚ) * 2 ^ low := by
      rw [hvalue]
      exact sub_pos.2 hlt
    exact_mod_cast pos_of_mul_pos_left hscaled (by positivity)
  have hmagnitude : (n : ℚ) / d = c.natAbs * 2 ^ low := by
    rw [h, ← hvalue, ← Int.cast_natCast, Int.natAbs_of_nonneg hpos.le]
  rw [sub_eq_ofModel, hxparts, hyparts, Parts.sub_unpacked, hsum,
    pack_normalize hpos.ne' hd hmagnitude, decide_eq_false hpos.not_gt]

/-! ### Products and quotients -/

/-- The sign of a product or of a quotient. -/
theorem sign_xor (s t : Bool) :
    (bif s ^^ t then -1 else 1 : ℚ) = (bif s then -1 else 1) * (bif t then -1 else 1) := by
  cases s <;> cases t <;> norm_num

theorem value?_mul (hx : value? x = some p) (hy : value? y = some q)
    (h : IsRepresentable (p * q)) : value? (x * y) = some (p * q) := by
  obtain ⟨s, m, e, hxparts, rfl⟩ := exists_parts hx
  obtain ⟨t, n, f, hyparts, rfl⟩ := exists_parts hy
  obtain ⟨a, d, hd, hvalue⟩ := exists_natCast_div_eq
    (show (0 : ℚ) ≤ m * 2 ^ e * (n * 2 ^ f) by positivity)
  rw [mul_mul_mul_comm, ← sign_xor, ← hvalue] at h ⊢
  rw [mul_eq_ofModel, hxparts, hyparts, Parts.mul_eq_nearest (hxparts ▸ isCanonical_parts x)
    (hyparts ▸ isCanonical_parts y) hd hvalue]
  exact value?_nearest_of_isRepresentable _ hd h

/-- A quotient is the number nearest to the exact one. -/
theorem exists_div_eq_nearest (hx : value? x = some p) (hy : value? y = some q) (hq : q ≠ 0) :
    ∃ (negative : Bool) (n d : ℕ), 0 < d ∧ p / q = (bif negative then -1 else 1) * (n / d) ∧
      x / y = nearest negative n d := by
  obtain ⟨s, m, e, hxparts, rfl⟩ := exists_parts hx
  obtain ⟨t, k, f, hyparts, rfl⟩ := exists_parts hy
  have hk : 0 < k := by
    rw [Nat.pos_iff_ne_zero]
    rintro rfl
    simp at hq
  have hsigns : (bif s then -1 else 1 : ℚ) / (bif t then -1 else 1) =
      bif s ^^ t then -1 else 1 := by
    cases s <;> cases t <;> norm_num
  obtain ⟨n, d, hd, hvalue⟩ := exists_natCast_div_eq
    (show (0 : ℚ) ≤ m * 2 ^ e / (k * 2 ^ f) by positivity)
  refine ⟨s ^^ t, n, d, hd, ?_, ?_⟩
  · rw [mul_div_mul_comm, hsigns, hvalue]
  · rw [div_eq_ofModel, hxparts, hyparts, Parts.div_eq_nearest hk hd hvalue]

theorem value?_div (hx : value? x = some p) (hy : value? y = some q) (hq : q ≠ 0)
    (h : IsRepresentable (p / q)) : value? (x / y) = some (p / q) := by
  obtain ⟨negative, n, d, hd, hvalue, hnearest⟩ := exists_div_eq_nearest hx hy hq
  rw [hvalue] at h ⊢
  rw [hnearest]
  exact value?_nearest_of_isRepresentable negative hd h

end

/-! ### Roundings -/

/-- A value below the last exponents is rounded to a mantissa at the exponent of its own. -/
theorem value?_nearest_eq_roundEven (negative : Bool) (hn : 0 < n) (hd : 0 < d)
    (h : max (Int.log 2 ((n : ℚ) / d) - 52) leastExponent = e) (he : e ≤ 970) :
    value? (nearest negative n d) =
      some ((bif negative then -1 else 1 : ℚ) * (roundEven ((n : ℚ) / d / 2 ^ e) * 2 ^ e)) := by
  have hpos : (0 : ℚ) < n / d := div_pos (by exact_mod_cast hn) (by exact_mod_cast hd)
  obtain ⟨hcarried, hleast, hnormal⟩ := mantissa_bounds hpos h
  rw [nearest_eq_roundEven hn hd h, value?_ofParts negative hcarried hleast hnormal (.inl he)]

/-- A value of full precision is changed by one part in 2 ^ 53 at most. -/
theorem exists_value?_nearest_near (negative : Bool) (hn : 0 < n) (hd : 0 < d)
    (hlow : -1022 ≤ Int.log 2 ((n : ℚ) / d)) (hhigh : Int.log 2 ((n : ℚ) / d) < 1023) :
    ∃ r : ℚ, value? (nearest negative n d) = some ((bif negative then -1 else 1 : ℚ) * r) ∧
      |r - n / d| ≤ n / d / 2 ^ 53 := by
  have hpos : (0 : ℚ) < n / d := div_pos (by exact_mod_cast hn) (by exact_mod_cast hd)
  obtain ⟨e, he⟩ : ∃ e, Int.log 2 ((n : ℚ) / d) = e + 52 := ⟨_, (sub_add_cancel _ _).symm⟩
  have hmax : max (Int.log 2 ((n : ℚ) / d) - 52) leastExponent = e := by
    unfold leastExponent
    omega
  refine ⟨_, value?_nearest_eq_roundEven negative hn hd hmax (by omega), ?_⟩
  have hfull : (2 : ℚ) ^ (e + 52) ≤ n / d := by
    have hle := Int.zpow_log_le_self one_lt_two hpos
    rwa [he, Nat.cast_ofNat] at hle
  calc |(roundEven ((n : ℚ) / d / 2 ^ e) : ℚ) * 2 ^ e - n / d| ≤ 2 ^ e / 2 :=
        abs_roundEven_mul_sub_le hpos.le (by positivity)
    _ = 2 ^ (e + 52) / 2 ^ 53 := by
        rw [zpow_add₀ two_ne_zero]
        norm_num
        ring
    _ ≤ n / d / 2 ^ 53 := div_le_div_of_nonneg_right hfull (by positivity)

end Ventilation.Binary64
