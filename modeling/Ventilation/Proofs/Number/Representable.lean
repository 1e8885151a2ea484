import Ventilation.Proofs.Number.Value

/-!
# Values that numbers have

A mantissa of at most 53 bits at an exponent in range is the value of a number, whether or not its
leading bit is set. A quotient that has such a value is rounded to it,
`value?_nearest_of_isRepresentable`.
-/

set_option autoImplicit false
set_option relaxedAutoImplicit false

namespace Ventilation.Binary64

/-- Some number has this value. -/
def IsRepresentable (q : ℚ) : Prop := ∃ x : Float, value? x = some q

/-- A number is a mantissa with a sign, in units of a power of two. -/
theorem exists_eq_mul_zpow {x : Float} {q : ℚ} (h : value? x = some q) :
    ∃ k e : ℤ, q = k * 2 ^ e ∧ k.natAbs < 2 ^ 53 ∧ -1074 ≤ e ∧ e ≤ 971 := by
  obtain ⟨negative, m, e, hparts, rfl⟩ := exists_parts h
  obtain ⟨hm, hlow, hhigh, -⟩ : (Parts.finite negative m e).IsCanonical :=
    hparts ▸ isCanonical_parts x
  refine ⟨bif negative then -m else m, e, ?_, ?_, hlow, hhigh⟩
  · cases negative <;> simp
  · cases negative <;> simpa using hm

/-- A mantissa with as many zeros after it as there is room for. -/
theorem exists_isCanonical (negative : Bool) {m : ℕ} {e : ℤ} (hm : m < 2 ^ 53) (hlow : -1074 ≤ e)
    (hhigh : e ≤ 971) :
    ∃ k f, (Parts.finite negative k f).IsCanonical ∧ (m : ℚ) * 2 ^ e = k * 2 ^ f := by
  rcases Nat.eq_zero_or_pos m with rfl | hpos
  · exact ⟨0, -1074, ⟨by decide, by decide, by decide, .inr rfl⟩, by simp⟩
  · have hlog : m.log2 < 53 := (Nat.log2_lt hpos.ne').2 hm
    obtain ⟨shift, hroom, hshift, hfull⟩ : ∃ shift : ℕ, m.log2 + shift ≤ 52 ∧
        -1074 ≤ e - shift ∧ (m.log2 + shift = 52 ∨ e - shift = -1074) :=
      ⟨min (52 - m.log2) (e + 1074).toNat, by omega, by omega, by omega⟩
    refine ⟨m * 2 ^ shift, e - shift, ⟨?_, hshift, by omega, hfull.imp_left fun hfull ↦ ?_⟩, ?_⟩
    · calc m * 2 ^ shift < 2 ^ (m.log2 + 1) * 2 ^ shift :=
            Nat.mul_lt_mul_of_pos_right Nat.lt_log2_self (Nat.two_pow_pos _)
        _ = 2 ^ (m.log2 + shift + 1) := by rw [← pow_add]; congr 1; omega
        _ ≤ 2 ^ 53 := Nat.pow_le_pow_right two_pos (by omega)
    · calc 2 ^ 52 = 2 ^ m.log2 * 2 ^ shift := by rw [← pow_add, hfull]
        _ ≤ m * 2 ^ shift := Nat.mul_le_mul_right _ (Nat.log2_self_le hpos.ne')
    · rw [zpow_sub₀ two_ne_zero, zpow_natCast]
      push_cast
      field_simp

theorem isRepresentable_signed (negative : Bool) {m : ℕ} {e : ℤ} (hm : m < 2 ^ 53)
    (hlow : -1074 ≤ e) (hhigh : e ≤ 971) :
    IsRepresentable ((bif negative then -1 else 1) * (m * 2 ^ e)) := by
  obtain ⟨k, f, hcanonical, hvalue⟩ := exists_isCanonical negative hm hlow hhigh
  exact ⟨ofParts negative k f, by rw [value?_of_finite (parts_ofParts hcanonical), hvalue]⟩

theorem isRepresentable_mul_zpow {k e : ℤ} (hk : k.natAbs < 2 ^ 53) (hlow : -1074 ≤ e)
    (hhigh : e ≤ 971) : IsRepresentable (k * 2 ^ e) := by
  rcases le_total 0 k with hsign | hsign
  · obtain ⟨m, rfl⟩ := Int.eq_ofNat_of_zero_le hsign
    have h := isRepresentable_signed false (m := m) (by omega) hlow hhigh
    rwa [cond_false, one_mul] at h
  · obtain ⟨m, hm⟩ := Int.eq_ofNat_of_zero_le (Int.neg_nonneg_of_nonpos hsign)
    obtain rfl : k = -m := by omega
    have h := isRepresentable_signed true (m := m) (by omega) hlow hhigh
    rw [cond_true, neg_one_mul, ← neg_mul] at h
    exact_mod_cast h

theorem isRepresentable_intCast {k : ℤ} (hk : k.natAbs < 2 ^ 53) : IsRepresentable k := by
  have h := isRepresentable_mul_zpow hk (e := 0) (by decide) (by decide)
  rwa [zpow_zero, mul_one] at h

theorem abs_sign (negative : Bool) : |(bif negative then -1 else 1 : ℚ)| = 1 := by
  cases negative <;> simp

/-- A quotient that is the value of a number is rounded to that value. -/
theorem value?_nearest_of_isRepresentable (negative : Bool) {n d : ℕ} (hd : 0 < d)
    (h : IsRepresentable ((bif negative then -1 else 1) * (n / d))) :
    value? (nearest negative n d) = some ((bif negative then -1 else 1 : ℚ) * (n / d)) := by
  obtain ⟨x, hx⟩ := h
  obtain ⟨s, m, e, hparts, hvalue⟩ := exists_parts hx
  have hcanonical : (Parts.finite negative m e).IsCanonical :=
    show (Parts.finite s m e).IsCanonical from hparts ▸ isCanonical_parts x
  have hmagnitude : (n : ℚ) / d = m * 2 ^ e := by
    have habs := congrArg abs hvalue
    rw [abs_mul, abs_mul, abs_sign, abs_sign, one_mul, one_mul] at habs
    rwa [abs_of_nonneg (by positivity), abs_of_nonneg (by positivity)] at habs
  rw [nearest_eq_ofParts hd hcanonical hmagnitude, hmagnitude,
    value?_of_finite (parts_ofParts hcanonical)]

end Ventilation.Binary64
