import Mathlib.Algebra.Order.Floor.Ring
import Mathlib.Data.Int.Order.Lemmas
import Mathlib.Data.Rat.Floor
import Mathlib.Tactic.Linarith
import Ventilation.Number.Scalar

/-!
# The nearest whole number

Rounding half to even gives the nearest whole number, and of two that are equally near the even one.
A rational has exactly one such number, `exists_roundHalfEven` and `IsNearestEven.eq`; the order of
rationals and their signs carry over to it. The floor of a negative number is negative, so that the
test for pairs leaves -1, and not 1, of an odd one.
-/

set_option autoImplicit false
set_option relaxedAutoImplicit false

namespace Ventilation

/-- A whole number at most half away, and even if it is half away. -/
structure IsNearestEven (x : ℚ) (n : ℤ) : Prop where
  abs_sub_le : |x - n| ≤ 1 / 2
  even_of_tie : |x - n| = 1 / 2 → Even n

namespace IsNearestEven

variable {x y : ℚ} {m n : ℤ}

/-- Numbers that changed places would be neighbours, both half away and both even. -/
theorem mono (hx : IsNearestEven x m) (hy : IsNearestEven y n) (hle : x ≤ y) : m ≤ n := by
  by_contra hlt
  have hstep : (n : ℚ) + 1 ≤ m := by exact_mod_cast not_le.1 hlt
  have hlow := (abs_le.1 hx.abs_sub_le).1
  have hhigh := (abs_le.1 hy.abs_sub_le).2
  have hneighbours : m = n + 1 := by
    have hvalues : (m : ℚ) = n + 1 := by linarith
    exact_mod_cast hvalues
  have hm : Even m := hx.even_of_tie ((abs_eq (by norm_num)).2 (.inr (by linarith)))
  have hn : Even n := hy.even_of_tie ((abs_eq (by norm_num)).2 (.inl (by linarith)))
  rw [hneighbours, Int.even_add_one] at hm
  exact hm hn

/-- A number that is nearer than half is no tie. -/
theorem of_lt (h : |x - n| < 1 / 2) : IsNearestEven x n :=
  ⟨h.le, fun htie ↦ absurd htie h.ne⟩

theorem eq (hm : IsNearestEven x m) (hn : IsNearestEven x n) : m = n :=
  le_antisymm (hm.mono hn le_rfl) (hn.mono hm le_rfl)

theorem neg (h : IsNearestEven x n) : IsNearestEven (-x) (-n) := by
  have habs : |-x - (-n : ℤ)| = |x - n| := by
    rw [← abs_neg (x - n)]
    congr 1
    push_cast
    ring
  refine ⟨habs.trans_le h.abs_sub_le, fun htie ↦ ?_⟩
  exact (h.even_of_tie (habs.symm.trans htie)).neg

end IsNearestEven

namespace Scalar

/-! ### The ways of rounding -/

section

variable {α : Type} [Scalar α] {x : α}

theorem roundHalfEven_of_gt (h : ofNat 1 / ofNat 2 < x - floor x) :
    roundHalfEven x = floor x + ofNat 1 :=
  if_pos h

theorem roundHalfEven_of_lt (h : ¬ ofNat 1 / ofNat 2 < x - floor x)
    (hbelow : x - floor x < ofNat 1 / ofNat 2) : roundHalfEven x = floor x :=
  (if_neg h).trans (if_pos hbelow)

theorem roundHalfEven_of_tie (h : ¬ ofNat 1 / ofNat 2 < x - floor x)
    (hbelow : ¬ x - floor x < ofNat 1 / ofNat 2) :
    roundHalfEven x =
      if unpaired (floor x) == ofNat 0 then floor x else floor x + ofNat 1 :=
  (if_neg h).trans (if_neg hbelow)

end

/-! ### Whole numbers beside a rational -/

theorem floor_eq (x : ℚ) : floor x = (⌊x⌋ : ℚ) := rfl

theorem ceil_eq (x : ℚ) : ceil x = (⌈x⌉ : ℚ) := congrArg Int.cast (Rat.ceil_eq_neg_floor_neg x)

theorem trunc_of_nonneg {x : ℚ} (h : 0 ≤ x) : trunc x = (⌊x⌋ : ℚ) := if_neg (not_lt.2 h)

theorem trunc_intCast (n : ℤ) : trunc (n : ℚ) = n := by
  rcases lt_or_ge (n : ℚ) 0 with hneg | hnonneg
  · exact (if_pos hneg).trans ((ceil_eq n).trans (by rw [Int.ceil_intCast]))
  · rw [trunc_of_nonneg hnonneg, Int.floor_intCast]

theorem trunc_neg {x : ℚ} (h : 0 ≤ x) : trunc (-x) = -(⌊x⌋ : ℚ) := by
  rcases h.eq_or_lt with rfl | hpos
  · simp [trunc_of_nonneg]
  · have hceil : trunc (-x) = (⌈-x⌉ : ℚ) := (if_pos (neg_neg_of_pos hpos)).trans (ceil_eq (-x))
    rw [hceil, Int.ceil_neg, Int.cast_neg]

/-! ### Pairs -/

/-- Half of a whole number without its fraction is the quotient cut toward zero. -/
theorem trunc_half (n : ℤ) : trunc ((n : ℚ) / 2) = (n.tdiv 2 : ℤ) := by
  have hnonneg (k : ℤ) (hk : 0 ≤ k) :
      0 ≤ (k : ℚ) / 2 ∧ (⌊(k : ℚ) / 2⌋ : ℚ) = (k.tdiv 2 : ℤ) := by
    refine ⟨div_nonneg (by exact_mod_cast hk) two_pos.le, ?_⟩
    rw [Int.tdiv_eq_ediv_of_nonneg hk]
    exact_mod_cast Rat.floor_intCast_div_natCast k 2
  rcases le_total 0 n with hn | hn
  · rw [trunc_of_nonneg (hnonneg n hn).1, (hnonneg n hn).2]
  · obtain ⟨hpos, hfloor⟩ := hnonneg (-n) (by omega)
    rw [Int.cast_neg, neg_div] at hpos hfloor
    rw [← neg_neg ((n : ℚ) / 2), trunc_neg hpos, hfloor, Int.neg_tdiv, Int.cast_neg, neg_neg]

theorem unpaired_intCast (n : ℤ) : unpaired (n : ℚ) = (n.tmod 2 : ℤ) := by
  have hhalf : trunc ((n : ℚ) / ofNat 2) = (n.tdiv 2 : ℤ) := trunc_half n
  have htwo : (ofNat 2 : ℚ) = 2 := rfl
  unfold unpaired
  rw [hhalf, htwo, Int.tmod_def]
  push_cast
  rfl

theorem unpaired_eq_zero_iff (n : ℤ) : (unpaired (n : ℚ) == ofNat 0) = true ↔ Even n := by
  have hzero : (ofNat 0 : ℚ) = 0 := rfl
  rw [unpaired_intCast, hzero, beq_iff_eq, Int.cast_eq_zero, even_iff_two_dvd,
    Int.dvd_iff_tmod_eq_zero]

/-! ### Rounding a rational -/

theorem exists_roundHalfEven (x : ℚ) : ∃ n : ℤ, roundHalfEven x = n ∧ IsNearestEven x n := by
  have hlow := Int.floor_le x
  have hhigh := Int.lt_floor_add_one x
  rcases lt_trichotomy (x - ⌊x⌋) (1 / 2) with hbelow | htie | habove
  · refine ⟨⌊x⌋, roundHalfEven_of_lt hbelow.not_gt hbelow, .of_lt ?_⟩
    rw [abs_lt]
    constructor <;> linarith
  · rw [roundHalfEven_of_tie htie.le.not_gt htie.ge.not_gt, floor_eq]
    by_cases heven : Even ⌊x⌋
    · refine ⟨⌊x⌋, if_pos ((unpaired_eq_zero_iff _).2 heven), ?_, fun _ ↦ heven⟩
      rw [abs_le]
      constructor <;> linarith
    · refine ⟨⌊x⌋ + 1, ?_, ?_, fun _ ↦ Int.even_add_one.2 heven⟩
      · rw [if_neg (mt (unpaired_eq_zero_iff _).1 heven), Int.cast_add, Int.cast_one]
        rfl
      · rw [Int.cast_add, Int.cast_one, abs_le]
        constructor <;> linarith
  · refine ⟨⌊x⌋ + 1, ?_, .of_lt ?_⟩
    · rw [roundHalfEven_of_gt habove, Int.cast_add, Int.cast_one]
      rfl
    · rw [Int.cast_add, Int.cast_one, abs_lt]
      constructor <;> linarith

theorem roundHalfEven_eq_iff {x : ℚ} {n : ℤ} : roundHalfEven x = n ↔ IsNearestEven x n := by
  obtain ⟨m, hround, hm⟩ := exists_roundHalfEven x
  rw [hround, Int.cast_inj]
  exact ⟨fun h ↦ h ▸ hm, hm.eq⟩

theorem roundHalfEven_mono : Monotone (roundHalfEven : ℚ → ℚ) := by
  intro x y hle
  obtain ⟨m, hx, hm⟩ := exists_roundHalfEven x
  obtain ⟨n, hy, hn⟩ := exists_roundHalfEven y
  rw [hx, hy, Int.cast_le]
  exact hm.mono hn hle

theorem roundHalfEven_neg (x : ℚ) : roundHalfEven (-x) = -roundHalfEven x := by
  obtain ⟨n, hx, hn⟩ := exists_roundHalfEven x
  rw [hx, ← Int.cast_neg, roundHalfEven_eq_iff]
  exact hn.neg

end Scalar

end Ventilation
