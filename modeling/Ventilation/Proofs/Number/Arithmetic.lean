import Ventilation.Proofs.Number.Exact
import Ventilation.Proofs.Number.Whole

/-!
# Products and quotients

A product or quotient is the number nearest to the exact one, `Parts.mul_eq_nearest` and
`Parts.div_eq_nearest`, and so for numbers without a sign. The arithmetic works on a mantissa with
two bits for what it leaves out, `Represents`; a shift to the right keeps what they stand for, and
the one rounding that follows is that of `nearest`, `pack_roundWithAccuracy`.
-/

set_option autoImplicit false
set_option relaxedAutoImplicit false

namespace Ventilation.Binary64

open Float.Model Float.Model.UnpackedFloat

/-! ### A mantissa and the bits after it -/

/-- The mantissa with its round bit, counted in halves. -/
def halves (em : ExtendedMantissa) : ℕ := 2 * em.mantissa + em.roundBit.toNat

/-- The value that a mantissa and the bits after it stand for. A sticky bit says only that it lies
strictly between two halves. -/
def Represents (em : ExtendedMantissa) (x : ℚ) : Prop :=
  if em.stickyBit then halves em < 2 * x ∧ 2 * x < halves em + 1 else 2 * x = halves em

theorem represents_exact (m : ℕ) : Represents (.ofMantissaAndAccuracy m .exact) m := by
  change (2 : ℚ) * m = (2 * m + 0 : ℕ)
  push_cast
  ring

namespace Represents

variable {em : ExtendedMantissa} {x : ℚ}

theorem bounds (h : Represents em x) : em.mantissa ≤ x ∧ x < em.mantissa + 1 := by
  have hhalves : (halves em : ℚ) = 2 * em.mantissa + (em.roundBit.toNat : ℕ) := by
    unfold halves
    push_cast
    rfl
  have hbit : ((em.roundBit.toNat : ℕ) : ℚ) ≤ 1 := by exact_mod_cast Bool.toNat_le _
  have hbit' : (0 : ℚ) ≤ (em.roundBit.toNat : ℕ) := Nat.cast_nonneg _
  unfold Represents at h
  split at h
  · constructor <;> linarith [h.1, h.2]
  · constructor <;> linarith

theorem shiftRightOne (h : Represents em x) : Represents em.shiftRightOne (x / 2) := by
  have hbit : (em.mantissa % 2 != 0).toNat = em.mantissa % 2 := by
    rcases Nat.mod_two_eq_zero_or_one em.mantissa with hzero | hone
    · rw [hzero]
      rfl
    · rw [hone]
      rfl
  have hhalves : halves em.shiftRightOne = em.mantissa := by
    change 2 * (em.mantissa / 2) + (em.mantissa % 2 != 0).toNat = _
    rw [hbit, Nat.div_add_mod]
  obtain ⟨m, round, sticky⟩ := em
  have hbounds := h.bounds
  change if (round || sticky) then _ else _
  rw [hhalves, mul_div_cancel₀ x two_ne_zero]
  cases round
  · cases sticky
    · change 2 * x = (2 * m + 0 : ℕ) at h
      push_cast at h
      change x = m
      linarith
    · change ((2 * m + 0 : ℕ) : ℚ) < 2 * x ∧ _ at h
      push_cast at h
      exact ⟨by change (m : ℚ) < x; linarith [h.1], hbounds.2⟩
  · have hlow : ((2 * m + 1 : ℕ) : ℚ) ≤ 2 * x := by
      cases sticky
      · exact (show 2 * x = (2 * m + 1 : ℕ) from h).ge
      · exact (show ((2 * m + 1 : ℕ) : ℚ) < 2 * x ∧ _ from h).1.le
    push_cast at hlow
    exact ⟨by change (m : ℚ) < x; linarith, hbounds.2⟩

theorem shiftRight (h : Represents em x) (n : ℕ) : Represents (em >>> n) (x / 2 ^ n) := by
  change Represents (n.repeat ExtendedMantissa.shiftRightOne em) _
  induction n with
  | zero => rwa [pow_zero, div_one]
  | succ n ih =>
    rw [Nat.repeat, pow_succ, ← div_div]
    exact ih.shiftRightOne

/-- The bits decide the rounding half to even. -/
theorem roundedMantissa (h : Represents em x) : em.roundedMantissa = roundEven x := by
  have hx : 0 ≤ x := (Nat.cast_nonneg _).trans h.bounds.1
  obtain ⟨m, round, sticky⟩ := em
  symm
  cases round <;> cases sticky
  · have hvalue : 2 * x = (2 * m + 0 : ℕ) := h
    push_cast at hvalue
    change roundEven x = m
    rw [← roundEven_natCast m]
    congr 1
    linarith
  · obtain ⟨hlow, hhigh⟩ : ((2 * m + 0 : ℕ) : ℚ) < 2 * x ∧ 2 * x < (2 * m + 0 : ℕ) + 1 := h
    push_cast at hlow hhigh
    change roundEven x = m
    exact roundEven_eq_of_near hx (by linarith) (by linarith)
      (.inr ⟨by linarith, by linarith⟩)
  · have hvalue : 2 * x = (2 * m + 1 : ℕ) := h
    push_cast at hvalue
    change roundEven x = m + m % 2
    have hrest : ((m % 2 : ℕ) : ℚ) ≤ 1 := by exact_mod_cast Nat.lt_succ_iff.1 (Nat.mod_lt m two_pos)
    have hrest' : (0 : ℚ) ≤ (m % 2 : ℕ) := Nat.cast_nonneg _
    apply roundEven_eq_of_near hx
    · push_cast
      linarith
    · push_cast
      linarith
    · exact .inl (by omega)
  · obtain ⟨hlow, hhigh⟩ : ((2 * m + 1 : ℕ) : ℚ) < 2 * x ∧ 2 * x < (2 * m + 1 : ℕ) + 1 := h
    push_cast at hlow hhigh
    change roundEven x = m + 1
    apply roundEven_eq_of_near hx
    · push_cast
      linarith
    · push_cast
      linarith
    · right
      push_cast
      constructor <;> linarith

end Represents

/-! ### Packing what was rounded -/

/-- The exponent that a mantissa is shifted to. -/
theorem targetExponent_eq (m : ℕ) (e : ℤ) :
    Format.binary64.targetExponent (totalExponent m e) = max (m.log2 + e - 52) leastExponent := by
  change max ((m.log2 : ℤ) + 1 + e - 53) (-1074) = max _ (-1074)
  congr 1
  omega

/-- A mantissa at its place is packed as it is, into infinity where the exponent is too large. -/
theorem pack_unpacked {negative : Bool} {m : ℕ} {e : ℤ} (hlt : m < 2 ^ 53)
    (hleast : leastExponent ≤ e) (hnormal : 2 ^ 52 ≤ m ∨ e = leastExponent) :
    Float.ofModel (.pack (Parts.finite negative m e).unpacked) = ofParts negative m e := by
  by_cases hgreatest : e ≤ 971
  · have hcanonical : (Parts.finite negative m e).IsCanonical := ⟨hlt, hleast, hgreatest, hnormal⟩
    have hparts := parts_ofModel_pack hcanonical
    exact parts_inj (by rw [hparts]; simp) (hparts.trans (parts_ofParts hcanonical).symm)
  · have hnormal' : 2 ^ 52 ≤ m := hnormal.resolve_right (by unfold leastExponent; omega)
    have hpos : 0 < m := by omega
    have hpack : UnpackedFloat.pack .binary64 (Parts.finite negative m e).unpacked =
        packedInfinity .binary64 (signOf negative) := by
      have hlarge : 2 ^ 11 ≤ (e + 1023 + 52).toNat + 1 := by omega
      simp only [Parts.unpacked, hpos.ne', ↓reduceDIte]
      exact if_pos hlarge
    have hmagnitude :
        min ((e - leastExponent).toNat * twoTo 52 + m) (2047 * twoTo 52) = 2047 * twoTo 52 := by
      unfold leastExponent
      change min (_ * 2 ^ 52 + m) (2047 * 2 ^ 52) = 2047 * 2 ^ 52
      omega
    unfold ofParts
    rw [hmagnitude]
    apply toBits_inj
    change (UnpackedFloat.pack .binary64 _).toNat = _
    rw [hpack]
    cases negative <;> rfl

theorem shiftToExponent_add (m : ℕ) (e : ℤ) (accuracy : Accuracy) (k : ℕ) :
    shiftToExponent m e accuracy (e + k) =
      (ExtendedMantissa.ofMantissaAndAccuracy m accuracy >>> k, e + k) := by
  unfold shiftToExponent
  rw [add_sub_cancel_left, Int.toNat_natCast]

/-- The second shift takes a mantissa that rounding has carried to 2 ^ 53 one place further. -/
theorem pack_carried {negative : Bool} {r : ℕ} {e : ℤ} (hr : r ≤ 2 ^ 53)
    (hleast : leastExponent ≤ e) (hnormal : 2 ^ 52 ≤ r ∨ e = leastExponent) :
    Float.ofModel (.pack (Parts.finite negative
        (shiftToTargetExponent .binary64 r e .exact).1.mantissa
        (shiftToTargetExponent .binary64 r e .exact).2).unpacked) = ofParts negative r e := by
  unfold shiftToTargetExponent
  simp only [targetExponent_eq]
  rcases hr.lt_or_eq with hlt | rfl
  · have hstay : max ((r.log2 : ℤ) + e - 52) leastExponent = e := by
      rcases Nat.eq_zero_or_pos r with rfl | hpos
      · rw [Nat.log2_zero]
        omega
      · have hlog := (Nat.log2_lt hpos.ne').2 hlt
        have hlarge : 2 ^ 52 ≤ r → 52 ≤ r.log2 := (Nat.le_log2 hpos.ne').2
        omega
    have hshift := shiftToExponent_add r e .exact 0
    rw [Nat.cast_zero, add_zero] at hshift
    rw [hstay, hshift]
    exact pack_unpacked hlt hleast hnormal
  · have hstep : max (((2 ^ 53 : ℕ).log2 : ℤ) + e - 52) leastExponent = e + 1 := by
      rw [Nat.log2_two_pow]
      omega
    have hhalf : (ExtendedMantissa.ofMantissaAndAccuracy (2 ^ 53) .exact >>> 1).mantissa =
        2 ^ 52 := by
      decide +kernel
    have hshift := shiftToExponent_add (2 ^ 53) e .exact 1
    rw [Nat.cast_one] at hshift
    rw [hstep, hshift, hhalf, pack_unpacked (by decide) (by omega) (.inl le_rfl),
      ← ofParts_carry (by omega), add_sub_cancel_right]

theorem roundWithAccuracy_eq_unpacked (negative : Bool) (m : ℕ) (e : ℤ) (accuracy : Accuracy) :
    roundWithAccuracy .binary64 (signOf negative) m e accuracy =
      let first := shiftToTargetExponent .binary64 m e accuracy
      let last := shiftToTargetExponent .binary64 first.1.roundedMantissa first.2 .exact
      (Parts.finite negative last.1.mantissa last.2).unpacked := rfl

variable {negative : Bool} {m : ℕ} {e : ℤ} {accuracy : Accuracy} {x : ℚ}

/-- The exponent of a mantissa is that of the value it stands for. A mantissa with nothing before
the point has the least exponent. -/
theorem max_log_of_represents (hx : 0 < x)
    (h : Represents (.ofMantissaAndAccuracy m accuracy) x) (hm : 0 < m ∨ e ≤ leastExponent) :
    max (Int.log 2 (x * 2 ^ e) - 52) leastExponent = max (m.log2 + e - 52) leastExponent := by
  have hmantissa : (ExtendedMantissa.ofMantissaAndAccuracy m accuracy).mantissa = m := by
    cases accuracy with
    | exact => rfl
    | inexact relative => cases relative <;> rfl
  obtain ⟨hlow, hhigh⟩ := h.bounds
  rw [hmantissa] at hlow hhigh
  have hunit : (0 : ℚ) < 2 ^ e := by positivity
  rcases Nat.eq_zero_or_pos m with rfl | hpos
  · have hleast := hm.resolve_left (lt_irrefl 0)
    have hlog : Int.log 2 (x * 2 ^ e) < e := by
      rw [← Int.lt_zpow_iff_log_lt one_lt_two (by positivity)]
      push_cast at hhigh ⊢
      rw [zero_add] at hhigh
      exact mul_lt_of_lt_one_left hunit hhigh
    rw [Nat.log2_zero]
    omega
  · have hlog : Int.log 2 (x * 2 ^ e) = m.log2 + e := by
      have hle : m + 1 ≤ 2 ^ (m.log2 + 1) := Nat.lt_log2_self
      have hle' : (m : ℚ) + 1 ≤ 2 ^ (m.log2 + 1) := by exact_mod_cast hle
      have hge : (2 : ℚ) ^ m.log2 ≤ m := by exact_mod_cast Nat.log2_self_le hpos.ne'
      have hlower : (m.log2 : ℤ) + e ≤ Int.log 2 (x * 2 ^ e) := by
        rw [← Int.zpow_le_iff_le_log one_lt_two (by positivity)]
        push_cast
        rw [zpow_add₀ two_ne_zero, zpow_natCast]
        exact mul_le_mul_of_nonneg_right (hge.trans hlow) hunit.le
      have hupper : Int.log 2 (x * 2 ^ e) < m.log2 + 1 + e := by
        rw [← Int.lt_zpow_iff_log_lt one_lt_two (by positivity)]
        push_cast
        rw [zpow_add₀ two_ne_zero]
        exact mul_lt_mul_of_pos_right (by exact_mod_cast hhigh.trans_le hle') hunit
      omega
    rw [hlog]

/-- The mantissa that a value is rounded to at its exponent. -/
theorem mantissa_bounds {v : ℚ} (hv : 0 < v) (h : max (Int.log 2 v - 52) leastExponent = e) :
    roundEven (v / 2 ^ e) ≤ 2 ^ 53 ∧ leastExponent ≤ e ∧
      (2 ^ 52 ≤ roundEven (v / 2 ^ e) ∨ e = leastExponent) := by
  have hunit : (0 : ℚ) < 2 ^ e := by positivity
  refine ⟨?_, by omega, ?_⟩
  · apply roundEven_le_natCast (by positivity)
    have hlt : Int.log 2 v < 53 + e := by omega
    rw [← Int.lt_zpow_iff_log_lt one_lt_two hv] at hlt
    push_cast at hlt ⊢
    rw [zpow_add₀ two_ne_zero] at hlt
    exact (div_le_iff₀ hunit).2 hlt.le
  · rcases eq_or_ne e leastExponent with hleast | hleast
    · exact .inr hleast
    · have hge : 52 + e ≤ Int.log 2 v := by omega
      rw [← Int.zpow_le_iff_le_log one_lt_two hv] at hge
      push_cast at hge
      rw [zpow_add₀ two_ne_zero] at hge
      refine .inl (natCast_le_roundEven ?_)
      push_cast
      exact (le_div_iff₀ hunit).2 hge

/-- The arithmetic rounds a value as `nearest` does, if it does not start from a greater exponent
than the value has. -/
theorem pack_roundWithAccuracy {n d : ℕ} (hx : 0 < x)
    (h : Represents (.ofMantissaAndAccuracy m accuracy) x) (hm : 0 < m ∨ e ≤ leastExponent)
    (htarget : e ≤ Format.binary64.targetExponent (totalExponent m e)) (hd : 0 < d)
    (hvalue : (n : ℚ) / d = x * 2 ^ e) :
    Float.ofModel (.pack (roundWithAccuracy .binary64 (signOf negative) m e accuracy)) =
      nearest negative n d := by
  have hn : 0 < n := by
    rw [Nat.pos_iff_ne_zero]
    rintro rfl
    rw [Nat.cast_zero, zero_div] at hvalue
    exact absurd hvalue (by positivity)
  have hlog := max_log_of_represents hx h hm
  rw [← hvalue] at hlog
  rw [targetExponent_eq] at htarget
  rw [nearest_eq_roundEven hn hd hlog, roundWithAccuracy_eq_unpacked]
  obtain ⟨k, hk⟩ : ∃ k : ℕ, max ((m.log2 : ℤ) + e - 52) leastExponent = e + k :=
    ⟨(max ((m.log2 : ℤ) + e - 52) leastExponent - e).toNat, by omega⟩
  rw [hk] at hlog
  have hscaled : (n : ℚ) / d / 2 ^ (e + k) = x / 2 ^ k := by
    rw [hvalue, zpow_add₀ two_ne_zero, zpow_natCast]
    field_simp
  have hmantissa := mantissa_bounds (by rw [hvalue]; positivity) hlog
  have hfirst : shiftToTargetExponent .binary64 m e accuracy =
      (ExtendedMantissa.ofMantissaAndAccuracy m accuracy >>> k, e + k) := by
    unfold shiftToTargetExponent
    rw [targetExponent_eq, hk, shiftToExponent_add]
  rw [hk, hfirst]
  simp only
  rw [hscaled, ← (h.shiftRight k).roundedMantissa] at hmantissa ⊢
  exact pack_carried hmantissa.1 hmantissa.2.1 hmantissa.2.2

/-! ### Products and quotients -/

theorem rational_of_parts {x : Float} {m : ℕ} {e : ℤ} (hx : parts x = .finite false m e) :
    rational x = m * 2 ^ e := by
  unfold rational
  rw [value?_of_parts hx (by simp), Option.getD_some]

theorem nearest_zero (d : ℕ) : nearest false 0 d = 0 := by
  have hzero : parts (nearest false 0 d) = parts 0 := by
    unfold nearest
    rw [if_pos rfl]
    decide +kernel
  exact parts_inj (by rw [hzero]; decide +kernel) hzero

section

variable {x y : Float} {n d : ℕ}

theorem natCast_eq_zero_of_div (hd : 0 < d) (h : (n : ℚ) / d = 0) : n = 0 := by
  have hd' : (d : ℚ) ≠ 0 := by exact_mod_cast hd.ne'
  exact_mod_cast (div_eq_zero_iff.1 h).resolve_right hd'

theorem mul_eq_ofModel (x y : Float) :
    x * y = .ofModel (.pack ((parts x).unpacked.mul .binary64 (parts y).unpacked)) := by
  rw [← unpack_toModel, ← unpack_toModel]
  rfl

theorem div_eq_ofModel (x y : Float) :
    x / y = .ofModel (.pack ((parts x).unpacked.div .binary64 (parts y).unpacked)) := by
  rw [← unpack_toModel, ← unpack_toModel]
  rfl

theorem signOf_xor (s t : Bool) : signOf (s ^^ t) = signOf s * signOf t := by
  cases s <;> cases t <;> rfl

theorem pack_zero (negative : Bool) :
    Float.ofModel (.pack (.zero (signOf negative))) = ofParts negative 0 leastExponent := by
  have hlt : 0 < 2 ^ 53 := by decide
  exact pack_unpacked hlt le_rfl (.inr rfl)

/-- A product starts from no greater exponent than it has: one factor has its leading bit, or both
have the least exponent. -/
theorem mul_exponent_le {s t : Bool} {m k : ℕ} {e f : ℤ} (hm : 0 < m) (hk : 0 < k)
    (hx : (Parts.finite s m e).IsCanonical) (hy : (Parts.finite t k f).IsCanonical) :
    e + f ≤ Format.binary64.targetExponent (totalExponent (m * k) (e + f)) := by
  rw [targetExponent_eq]
  by_cases hlarge : 2 ^ 52 ≤ m * k
  · have hlog := (Nat.le_log2 (Nat.mul_pos hm hk).ne').2 hlarge
    omega
  · have hmk : m ≤ m * k := Nat.le_mul_of_pos_right m hk
    have hkm : k ≤ m * k := Nat.le_mul_of_pos_left k hm
    have he := hx.2.2.2.resolve_left (by omega)
    have hf := hy.2.2.2.resolve_left (by omega)
    unfold leastExponent
    omega

/-- The magnitudes decide what a product is rounded to, and the signs its sign. -/
theorem Parts.mul_eq_nearest {s t : Bool} {m k : ℕ} {e f : ℤ}
    (hx : (Parts.finite s m e).IsCanonical) (hy : (Parts.finite t k f).IsCanonical) (hd : 0 < d)
    (h : (n : ℚ) / d = m * 2 ^ e * (k * 2 ^ f)) :
    Float.ofModel (.pack ((Parts.finite s m e).unpacked.mul .binary64
      (Parts.finite t k f).unpacked)) = nearest (s ^^ t) n d := by
  rcases Nat.eq_zero_or_pos (m * k) with hzero | hpos
  · have hproduct : (Parts.finite s m e).unpacked.mul .binary64 (Parts.finite t k f).unpacked =
        .zero (signOf (s ^^ t)) := by
      rw [signOf_xor]
      rcases Nat.mul_eq_zero.1 hzero with rfl | rfl
      · by_cases hk : k = 0 <;> simp only [Parts.unpacked, hk, ↓reduceDIte] <;> rfl
      · by_cases hm : m = 0 <;> simp only [Parts.unpacked, hm, ↓reduceDIte] <;> rfl
    have hvalue : (m : ℚ) * 2 ^ e * (k * 2 ^ f) = (m * k : ℕ) * (2 ^ e * 2 ^ f) := by
      push_cast
      ring
    rw [hvalue, hzero, Nat.cast_zero, zero_mul] at h
    rw [natCast_eq_zero_of_div hd h, hproduct, pack_zero]
    rfl
  · have hm := Nat.pos_of_mul_pos_right hpos
    have hk := Nat.pos_of_mul_pos_left hpos
    have hproduct : (Parts.finite s m e).unpacked.mul .binary64 (Parts.finite t k f).unpacked =
        roundWithAccuracy .binary64 (signOf (s ^^ t)) (m * k) (e + f) .exact := by
      rw [signOf_xor]
      simp only [Parts.unpacked, hm.ne', hk.ne', ↓reduceDIte]
      rfl
    rw [hproduct]
    refine pack_roundWithAccuracy ?_ (represents_exact _) (.inl hpos) (mul_exponent_le hm hk hx hy)
      hd ?_
    · exact_mod_cast hpos
    · rw [h, zpow_add₀ two_ne_zero]
      push_cast
      ring

/-- A product is the number nearest to the exact one. -/
theorem mul_eq_nearest (hx : IsUnsigned x) (hy : IsUnsigned y) (hd : 0 < d)
    (h : (n : ℚ) / d = rational x * rational y) : x * y = nearest false n d := by
  obtain ⟨m, e, hxparts⟩ := hx.exists_parts
  obtain ⟨k, f, hyparts⟩ := hy.exists_parts
  rw [rational_of_parts hxparts, rational_of_parts hyparts] at h
  rw [mul_eq_ofModel, hxparts, hyparts]
  exact Parts.mul_eq_nearest (hxparts ▸ isCanonical_parts x) (hyparts ▸ isCanonical_parts y) hd h

/-- A quotient of whole numbers with the two bits for its remainder. -/
theorem represents_fraction (hd : 0 < d) :
    Represents (.ofMantissaAndAccuracy (n / d) (accuracyOfFraction (n % d) d)) ((n : ℚ) / d) := by
  have hd' : (0 : ℚ) < d := by exact_mod_cast hd
  have hlt := Nat.mod_lt n hd
  have hn : (n : ℚ) / d = (n / d : ℕ) + (n % d : ℕ) / d := by
    rw [div_eq_iff hd'.ne', add_mul, div_mul_cancel₀ _ hd'.ne']
    exact_mod_cast (Nat.div_add_mod' n d).symm
  rw [hn]
  generalize n / d = q
  generalize n % d = r at hlt
  have hr : (r : ℚ) / d < 1 := (div_lt_one hd').2 (by exact_mod_cast hlt)
  unfold accuracyOfFraction
  by_cases hzero : r = 0
  · rw [if_pos hzero, hzero, Nat.cast_zero, zero_div, add_zero]
    exact represents_exact q
  · have hpos : (0 : ℚ) < r / d := div_pos (by exact_mod_cast Nat.pos_of_ne_zero hzero) hd'
    rw [if_neg hzero]
    rcases Nat.lt_trichotomy (2 * r) d with h | h | h
    · have hhalf : (r : ℚ) / d < 1 / 2 := by
        rw [div_lt_div_iff₀ hd' two_pos]
        exact_mod_cast (by omega : r * 2 < 1 * d)
      rw [Nat.compare_eq_lt.2 h]
      change ((2 * q + 0 : ℕ) : ℚ) < _ ∧ _ < ((2 * q + 0 : ℕ) : ℚ) + 1
      push_cast
      constructor <;> linarith
    · have hhalf : (r : ℚ) / d = 1 / 2 := by
        rw [div_eq_div_iff hd'.ne' two_ne_zero]
        exact_mod_cast (by omega : r * 2 = 1 * d)
      rw [Nat.compare_eq_eq.2 h]
      change _ = ((2 * q + 1 : ℕ) : ℚ)
      push_cast
      linarith
    · have hhalf : 1 / 2 < (r : ℚ) / d := by
        rw [div_lt_div_iff₀ two_pos hd']
        exact_mod_cast (by omega : 1 * d < r * 2)
      rw [Nat.compare_eq_gt.2 h]
      change ((2 * q + 1 : ℕ) : ℚ) < _ ∧ _ < ((2 * q + 1 : ℕ) : ℚ) + 1
      push_cast
      constructor <;> linarith

/-- A quotient has all the bits of a mantissa before its remainder, unless it starts at the least
exponent or below. -/
theorem le_div_of_log {m k shift : ℕ} (hm : 0 < m) (hk : 0 < k)
    (h : k.log2 + 53 ≤ m.log2 + shift) : 2 ^ 52 ≤ m * 2 ^ shift / k := by
  rw [Nat.le_div_iff_mul_le hk]
  calc 2 ^ 52 * k ≤ 2 ^ 52 * 2 ^ (k.log2 + 1) := Nat.mul_le_mul_left _ Nat.lt_log2_self.le
    _ = 2 ^ (k.log2 + 53) := by rw [← pow_add]; congr 1; omega
    _ ≤ 2 ^ (m.log2 + shift) := Nat.pow_le_pow_right two_pos h
    _ = 2 ^ m.log2 * 2 ^ shift := pow_add ..
    _ ≤ m * 2 ^ shift := Nat.mul_le_mul_right _ (Nat.log2_self_le hm.ne')

/-- The magnitudes decide what a quotient is rounded to, and the signs its sign. -/
theorem Parts.div_eq_nearest {s t : Bool} {m k : ℕ} {e f : ℤ} (hk : 0 < k) (hd : 0 < d)
    (h : (n : ℚ) / d = m * 2 ^ e / (k * 2 ^ f)) :
    Float.ofModel (.pack ((Parts.finite s m e).unpacked.div .binary64
      (Parts.finite t k f).unpacked)) = nearest (s ^^ t) n d := by
  rcases Nat.eq_zero_or_pos m with rfl | hm
  · have hquotient : (Parts.finite s 0 e).unpacked.div .binary64 (Parts.finite t k f).unpacked =
        .zero (signOf (s ^^ t)) := by
      rw [signOf_xor]
      simp only [Parts.unpacked, hk.ne', ↓reduceDIte]
      rfl
    rw [Nat.cast_zero, zero_mul, zero_div] at h
    rw [natCast_eq_zero_of_div hd h, hquotient, pack_zero]
    rfl
  · have htarget : Format.binary64.targetExponent (totalExponent m e - totalExponent k f) =
        max (m.log2 + e - (k.log2 + f) - 53) leastExponent := by
      change max ((m.log2 : ℤ) + 1 + e - (k.log2 + 1 + f) - 53) (-1074) = max _ (-1074)
      congr 1
      omega
    obtain ⟨shift, hshift⟩ : ∃ shift : ℕ,
        min (e - f) (max (m.log2 + e - (k.log2 + f) - 53) leastExponent) = e - f - shift :=
      ⟨(e - f - min (e - f) (max (m.log2 + e - (k.log2 + f) - 53) leastExponent)).toNat, by omega⟩
    have hcore : divCore .binary64 m e k f =
        (m * 2 ^ shift / k, e - f - shift, accuracyOfFraction (m * 2 ^ shift % k) k) := by
      unfold divCore
      simp only [htarget, hshift, sub_sub_cancel, Int.toNat_natCast, Nat.shiftLeft_eq]
    have hquotient : (Parts.finite s m e).unpacked.div .binary64 (Parts.finite t k f).unpacked =
        roundWithAccuracy .binary64 (signOf (s ^^ t)) (m * 2 ^ shift / k) (e - f - shift)
          (accuracyOfFraction (m * 2 ^ shift % k) k) := by
      rw [signOf_xor]
      simp only [Parts.unpacked, hm.ne', hk.ne', ↓reduceDIte, UnpackedFloat.div, hcore]
      rfl
    have hbits : 2 ^ 52 ≤ m * 2 ^ shift / k ∨ e - f - shift ≤ leastExponent := by
      rcases le_or_gt (e - f - shift) leastExponent with hle | hlt
      · exact .inr hle
      · exact .inl (le_div_of_log hm hk (by omega))
    rw [hquotient]
    refine pack_roundWithAccuracy ?_ (represents_fraction hk) ?_ ?_ hd ?_
    · positivity
    · exact hbits.imp_left fun hlarge ↦ (Nat.two_pow_pos 52).trans_le hlarge
    · rw [targetExponent_eq]
      rcases hbits with hlarge | hle
      · have hlog := (Nat.le_log2 (by omega)).2 hlarge
        omega
      · exact hle.trans (le_max_right _ _)
    · rw [h, zpow_sub₀ two_ne_zero, zpow_sub₀ two_ne_zero, zpow_natCast]
      push_cast
      field_simp

/-- A quotient is the number nearest to the exact one. -/
theorem div_eq_nearest (hx : IsUnsigned x) (hy : IsUnsigned y) (hpos : 0 < rational y)
    (hd : 0 < d) (h : (n : ℚ) / d = rational x / rational y) : x / y = nearest false n d := by
  obtain ⟨m, e, hxparts⟩ := hx.exists_parts
  obtain ⟨k, f, hyparts⟩ := hy.exists_parts
  rw [rational_of_parts hyparts] at h hpos
  rw [rational_of_parts hxparts] at h
  have hk : 0 < k := by
    rw [Nat.pos_iff_ne_zero]
    rintro rfl
    simp at hpos
  rw [div_eq_ofModel, hxparts, hyparts]
  exact Parts.div_eq_nearest hk hd h

end

end Ventilation.Binary64
