import Mathlib.Tactic.Basic
import Ventilation.Pricing.Chain
import Ventilation.Pricing.Options
import Ventilation.Proofs.Pricing.Answer

/-!
# Amounts that are no price

The last rounding refuses an amount that is not finite, below zero or too large for 64 bits. The
chain can fail for nothing else. A configuration takes finite figures only.
-/

set_option autoImplicit false
set_option relaxedAutoImplicit false

namespace Ventilation

/-- Amounts that are no price. -/
def IsRefused (x : Float) : Prop := x.isFinite = false ∨ x < 0 ∨ 9223372036854775808 ≤ x

theorem isRefused_iff {x : Float} :
    (!x.isFinite || decide (x < 0) || decide (9223372036854775808 ≤ x)) = true ↔ IsRefused x := by
  simp [IsRefused, or_assoc]

theorem wholePrice_of_isRefused {x : Float} (h : IsRefused x) :
    wholePrice x = .error (.invalidPrice x) := by
  unfold wholePrice
  rw [if_pos (isRefused_iff.2 h)]

theorem wholePrice_of_not_isRefused {x : Float} (h : ¬ IsRefused x) :
    wholePrice x = .ok (roundHalfUp x) := by
  unfold wholePrice
  rw [if_neg fun hx ↦ h (isRefused_iff.1 hx)]

namespace ChainInput

variable {input : ChainInput} {tb wd : Option Float} {size : PricedSize}
  {price? : String → Option Float}

theorem run_of_isRefused (h : IsRefused (input.stages tb wd size price?).finished) :
    input.run tb wd size price? =
      .error (.invalidPrice (input.stages tb wd size price?).finished) := by
  unfold run
  simp only [wholePrice_of_isRefused h]
  rfl

theorem exists_run_of_not_isRefused (h : ¬ IsRefused (input.stages tb wd size price?).finished) :
    ∃ b, input.run tb wd size price? = .ok b := by
  unfold run
  simp only [wholePrice_of_not_isRefused h]
  exact ⟨_, rfl⟩

theorem run_eq_error_iff {error : PricingError} :
    input.run tb wd size price? = .error error ↔
      error = .invalidPrice (input.stages tb wd size price?).finished ∧
        IsRefused (input.stages tb wd size price?).finished := by
  constructor
  · intro h
    by_cases hrefused : IsRefused (input.stages tb wd size price?).finished
    · exact ⟨Except.error.inj (h.symm.trans (run_of_isRefused hrefused)), hrefused⟩
    · obtain ⟨b, hb⟩ := exists_run_of_not_isRefused hrefused
      cases hb.symm.trans h
  · rintro ⟨rfl, hrefused⟩
    exact run_of_isRefused hrefused

end ChainInput

/-! ### Figures of a configuration -/

theorem ite_eq_ok_iff {ε : Type} {b : Bool} {error : ε} :
    (if b then Except.ok () else .error error) = .ok () ↔ b = true := by
  cases b
  · exact iff_of_false nofun Bool.false_ne_true
  · exact iff_of_true rfl rfl

theorem checkPositive_eq_ok_iff {field : String} {x : Float} :
    checkPositive field x = .ok () ↔ x.isFinite = true ∧ 0 < x :=
  ite_eq_ok_iff.trans (by rw [Bool.and_eq_true, decide_eq_true_eq])

theorem checkNonNegative_eq_ok_iff {field : String} {x : Float} :
    checkNonNegative field x = .ok () ↔ x.isFinite = true ∧ 0 ≤ x :=
  ite_eq_ok_iff.trans (by rw [Bool.and_eq_true, decide_eq_true_eq])

end Ventilation
