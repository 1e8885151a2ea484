import Ventilation.Number.Scalar
import Ventilation.Proofs.Number.Exact

/-!
# Numbers that are not negative

Sums and whole parts of numbers at or above zero stay there, and so do the numbers nearest to
quotients without a sign and the integers that they are cut to.
-/

set_option autoImplicit false
set_option relaxedAutoImplicit false

namespace Ventilation.Binary64

open Float.Model

/-- A number at or above zero, the negative zero among them. -/
structure IsNonneg (x : Float) : Prop where
  isNumber : IsNumber x
  place_nonneg : 0 ≤ place x

theorem zero_le_iff {x : Float} : 0 ≤ x ↔ IsNonneg x := by
  have hzero : IsNumber 0 ∧ place 0 = 0 := by decide +kernel
  rw [le_iff, hzero.2]
  exact ⟨fun h ↦ ⟨h.2.1, h.2.2⟩, fun h ↦ ⟨hzero.1, h.1, h.2⟩⟩

theorem isNonneg_of_not_lt {x : Float} (hx : IsNumber x) (h : ¬ x < 0) : IsNonneg x := by
  have hzero : IsNumber 0 ∧ place 0 = 0 := by decide +kernel
  rw [lt_iff, hzero.2] at h
  exact ⟨hx, Int.not_lt.1 fun hlt ↦ h ⟨hx, hzero.1, hlt⟩⟩

theorem isNonneg_add {x y : Float} (hx : IsNonneg x) (hy : IsNonneg y) : IsNonneg (x + y) := by
  have hadd : x + y = .ofModel (.pack ((parts x).unpacked.add .binary64 (parts y).unpacked)) := by
    rw [← unpack_toModel, ← unpack_toModel]
    rfl
  have hupward := isUpward_add (isUpward_unpacked (isCanonical_parts x) hx.1 hx.2)
    (isUpward_unpacked (isCanonical_parts y) hy.1 hy.2)
  rw [hadd]
  exact ⟨(place_pack_nonneg hupward).1, (place_pack_nonneg hupward).2⟩

/-! ### Numbers without a sign -/

theorem Parts.place_nonneg {p : Parts} (h : p.isNegative = false) : 0 ≤ p.place := by
  unfold Parts.place
  rw [h, cond_false]
  exact Int.natCast_nonneg _

theorem isNegative_partsOf {word : ℕ} (h : word < 2 ^ 63) : (partsOf word).isNegative = false := by
  have hsign : decide (2 ^ 63 ≤ word) = false := decide_eq_false (Nat.not_le_of_lt h)
  unfold partsOf
  split
  · split
    · exact hsign
    · rfl
  · split <;> exact hsign

theorem place_ofBits_nonneg {word : ℕ} (h : word < 2 ^ 63) :
    0 ≤ place (Float.ofBits (UInt64.ofNat word)) := by
  unfold place
  rw [parts_ofBits (by omega)]
  exact Parts.place_nonneg (isNegative_partsOf h)

theorem place_ofParts_nonneg (mantissa : ℕ) (exponent : ℤ) :
    0 ≤ place (ofParts false mantissa exponent) := by
  have hle := Nat.min_le_right ((exponent - leastExponent).toNat * twoTo 52 + mantissa)
    (2047 * twoTo 52)
  unfold ofParts
  rw [if_neg Bool.false_ne_true]
  generalize min ((exponent - leastExponent).toNat * twoTo 52 + mantissa) (2047 * twoTo 52) =
    magnitude at hle ⊢
  apply place_ofBits_nonneg
  change magnitude ≤ 2047 * 2 ^ 52 at hle
  omega

theorem place_nearest_nonneg (n d : ℕ) : 0 ≤ place (nearest false n d) := by
  unfold nearest
  split <;> exact place_ofParts_nonneg _ _

/-! ### Whole parts -/

theorem mantissa_eq_zero_of_place_nonneg {mantissa : ℕ} {exponent : ℤ}
    (hp : (Parts.finite true mantissa exponent).IsCanonical)
    (h : 0 ≤ (Parts.finite true mantissa exponent).place) : mantissa = 0 := by
  rw [← Parts.magnitude_finite_eq_zero hp]
  unfold Parts.place at h
  rw [show (Parts.finite true mantissa exponent).isNegative = true from rfl, cond_true] at h
  generalize (Parts.finite true mantissa exponent).magnitude = magnitude at h
  omega

theorem place_toWhole_nonneg {direction : Direction} {x : Float} (h : 0 ≤ place x) :
    0 ≤ place (toWhole direction x) := by
  cases hparts : parts x with
  | nan =>
    unfold toWhole
    rwa [hparts]
  | infinite negative =>
    unfold toWhole
    rwa [hparts]
  | finite negative mantissa exponent =>
    cases negative with
    | false =>
      unfold toWhole
      rw [hparts]
      simp only
      split
      · exact h
      · exact place_nearest_nonneg _ _
    | true =>
      have hcanonical := isCanonical_parts x
      unfold place at h
      rw [hparts] at h hcanonical
      obtain rfl := mantissa_eq_zero_of_place_nonneg hcanonical h
      have hvalue : value? x = some ((0 : ℕ) : ℚ) := by
        rw [value?_of_parts hparts fun _ ↦ rfl, Nat.cast_zero, zero_mul]
      rw [toWhole_of_value? direction hvalue]
      unfold place
      rwa [hparts]

theorem toIntWithin_nonneg {low high : ℤ} {x : Float} (hhigh : 0 ≤ high) (h : 0 ≤ place x) :
    0 ≤ toIntWithin low high x := by
  have hcanonical := isCanonical_parts x
  unfold toIntWithin
  unfold place at h
  cases hparts : parts x with
  | nan => exact le_rfl
  | infinite negative =>
    rw [hparts] at h
    cases negative with
    | false => exact hhigh
    | true => exact absurd h (by decide)
  | finite negative mantissa exponent =>
    rw [hparts] at h hcanonical
    simp only
    have hwhole : 0 ≤ (if negative = true then
        -((mantissa * twoTo exponent.toNat / twoTo (-exponent).toNat : ℕ) : ℤ)
        else (mantissa * twoTo exponent.toNat / twoTo (-exponent).toNat : ℕ)) := by
      cases negative with
      | false => exact Int.natCast_nonneg _
      | true =>
        rw [mantissa_eq_zero_of_place_nonneg hcanonical h, Nat.zero_mul, Nat.zero_div]
        exact le_rfl
    exact (le_min hhigh hwhole).trans (le_max_right _ _)

theorem toIntWithin_le {low high : ℤ} {x : Float} (hlow : low ≤ high) (hhigh : 0 ≤ high) :
    toIntWithin low high x ≤ high := by
  unfold toIntWithin
  cases parts x with
  | nan => exact hhigh
  | infinite negative =>
    cases negative with
    | false => exact le_rfl
    | true => exact hlow
  | finite negative mantissa exponent => exact max_le hlow (min_le_left _ _)

end Ventilation.Binary64
