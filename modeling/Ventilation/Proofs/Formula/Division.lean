import Ventilation.Formula.Eval
import Ventilation.Proofs.Number.WholeDivision
import Ventilation.Proofs.Number.WholeRounding

/-!
# Division with a remainder, and rounding to whole numbers

The operators divide to the floor, so that a remainder lies on the side of its divisor, and `round`
goes to the nearest whole number and from a tie to the even one. Over the rationals this holds of
all numbers. In binary64 the same outcome is reached by whole numbers as long as the multiples of
the divisor between them are exact, and by `round` for every finite number.
-/

set_option autoImplicit false
set_option relaxedAutoImplicit false

namespace Ventilation.Formula

open Binary64

/-! ### Division to the floor -/

/-- A quotient that is rounded down, and the rest that it leaves of the dividend, which lies between
zero and the divisor. -/
structure IsFloorDivision (a b : ℚ) (quotient : ℤ) (rest : ℚ) : Prop where
  isGreatest : IsGreatest {n : ℤ | (n : ℚ) ≤ a / b} quotient
  eq_mul_add : a = b * quotient + rest
  rest_mem_of_pos : 0 < b → rest ∈ Set.Ico 0 b
  rest_mem_of_neg : b < 0 → rest ∈ Set.Ioc b 0

theorem sub_mul_floor_mem_Ico (a : ℚ) {b : ℚ} (hb : 0 < b) : a - b * ⌊a / b⌋ ∈ Set.Ico 0 b := by
  rw [mul_comm]
  exact ⟨Int.sub_floor_div_mul_nonneg a hb, Int.sub_floor_div_mul_lt a hb⟩

/-- With both signs changed the quotient is the same and the rest changes its sign. -/
theorem sub_mul_floor_mem_Ioc (a : ℚ) {b : ℚ} (hb : b < 0) : a - b * ⌊a / b⌋ ∈ Set.Ioc b 0 := by
  obtain ⟨hnonneg, hlt⟩ := sub_mul_floor_mem_Ico (-a) (neg_pos.2 hb)
  rw [neg_div_neg_eq] at hnonneg hlt
  constructor <;> linarith

theorem isFloorDivision_floor (a b : ℚ) : IsFloorDivision a b ⌊a / b⌋ (a - b * ⌊a / b⌋) where
  isGreatest := ⟨Int.floor_le (a / b), fun _ hn ↦ Int.le_floor.2 hn⟩
  eq_mul_add := (add_sub_cancel _ _).symm
  rest_mem_of_pos := sub_mul_floor_mem_Ico a
  rest_mem_of_neg := sub_mul_floor_mem_Ioc a

/-! ### The operators -/

section

variable {α : Type} {p : Prop} [Decidable p] {x : α}

theorem divided_eq_error_iff :
    divided (if p then none else some x) = .error .divisionByZero ↔ p := by
  split
  · exact iff_of_true rfl ‹_›
  · exact iff_of_false (by rintro ⟨⟩) ‹_›

theorem divided_of_not (h : ¬ p) : divided (if p then none else some x) = .ok x := by
  rw [if_neg h]
  rfl

end

theorem beq_ofNat_zero_iff (b : ℚ) : (b == Scalar.ofNat 0) = true ↔ b = 0 := by
  rw [beq_iff_eq]
  exact Iff.of_eq (congrArg (b = ·) Nat.cast_zero)

theorem beq_ofNat_zero_of_value? {y : Float} {b : ℚ} (h : value? y = some b) :
    (y == Scalar.ofNat 0) = true ↔ (b == Scalar.ofNat 0) = true := by
  rw [beq_ofNat_zero_iff, beq_iff_of_value? h (value?_ofNat (by decide)), Nat.cast_zero]

/-! ### Exact outcomes in binary64 -/

/-- The same failure, or a number of the exact value. -/
inductive IsExact : Except Error Float → Except Error ℚ → Prop
  | error (e : Error) : IsExact (.error e) (.error e)
  | ok {x : Float} {q : ℚ} (h : value? x = some q) : IsExact (.ok x) (.ok q)

theorem isExact_divided {p p' : Prop} [Decidable p] [Decidable p'] {x : Float} {q : ℚ}
    (hp : p ↔ p') (h : ¬ p' → value? x = some q) :
    IsExact (divided (if p then none else some x)) (divided (if p' then none else some q)) := by
  by_cases hp' : p'
  · rw [if_pos (hp.2 hp'), if_pos hp']
    exact .error .divisionByZero
  · rw [if_neg (mt hp.1 hp'), if_neg hp']
    exact .ok (h hp')

section

variable {x y : Float} {a b : ℤ} (raise : ℚ → ℚ → Except Error ℚ)

/-- Whole numbers are divided exactly, by zero as by any other of them. -/
theorem isExact_floorDivide (hx : value? x = some (a : ℚ)) (hy : value? y = some (b : ℚ))
    (hsmall : a.natAbs + b.natAbs ≤ 2 ^ 53) :
    IsExact (Operator.floorDivide.apply x y) (Operator.floorDivide.applyWith raise a b) := by
  refine isExact_divided (beq_ofNat_zero_of_value? hy) fun hb ↦ ?_
  rw [beq_ofNat_zero_iff, Int.cast_eq_zero] at hb
  have hdivisor := Int.natAbs_pos.2 hb
  exact value?_floor_div hx hy hb (by omega) (by omega)

theorem isExact_modulo (hx : value? x = some (a : ℚ)) (hy : value? y = some (b : ℚ))
    (hsmall : a.natAbs + b.natAbs ≤ 2 ^ 53) :
    IsExact (Operator.modulo.apply x y) (Operator.modulo.applyWith raise a b) := by
  refine isExact_divided (beq_ofNat_zero_of_value? hy) fun hb ↦ ?_
  rw [beq_ofNat_zero_iff, Int.cast_eq_zero] at hb
  exact value?_sub_mul_floor_div hx hy hb hsmall

end

theorem isExact_round {x : Float} {q : ℚ} (h : value? x = some q) :
    IsExact (Function.round.apply [x]) (.ok (Scalar.roundHalfEven q)) :=
  .ok (value?_roundHalfEven h)

/-! ### Both together -/

/-- Division to the floor, its remainder and rounding half to even, for operands of either sign. -/
theorem divides_to_floor_and_rounds_to_even (raise : ℚ → ℚ → Except Error ℚ) :
    (∀ a b : ℚ,
      (Operator.floorDivide.applyWith raise a b = .error .divisionByZero ↔ b = 0) ∧
      (Operator.modulo.applyWith raise a b = .error .divisionByZero ↔ b = 0) ∧
      (b ≠ 0 → ∃ (quotient : ℤ) (rest : ℚ),
        Operator.floorDivide.applyWith raise a b = .ok (quotient : ℚ) ∧
        Operator.modulo.applyWith raise a b = .ok rest ∧ IsFloorDivision a b quotient rest)) ∧
    (∀ x : ℚ, ∃ n : ℤ, Scalar.roundHalfEven x = n ∧ ∀ m, IsNearestEven x m ↔ m = n) ∧
    Monotone (Scalar.roundHalfEven : ℚ → ℚ) ∧
    (∀ x : ℚ, Scalar.roundHalfEven (-x) = -Scalar.roundHalfEven x) ∧
    (∀ x y : Float,
      (Operator.floorDivide.apply x y = .error .divisionByZero ↔ (y == 0) = true) ∧
      (Operator.modulo.apply x y = .error .divisionByZero ↔ (y == 0) = true)) ∧
    (∀ (x y : Float) (a b : ℤ), value? x = some (a : ℚ) → value? y = some (b : ℚ) →
      a.natAbs + b.natAbs ≤ 2 ^ 53 →
      IsExact (Operator.floorDivide.apply x y) (Operator.floorDivide.applyWith raise a b) ∧
      IsExact (Operator.modulo.apply x y) (Operator.modulo.applyWith raise a b)) ∧
    ∀ (x : Float) (q : ℚ), value? x = some q →
      IsExact (Function.round.apply [x]) (.ok (Scalar.roundHalfEven q)) := by
  refine ⟨fun a b ↦ ⟨?_, ?_, fun hb ↦ ?_⟩, fun x ↦ ?_, Scalar.roundHalfEven_mono,
    Scalar.roundHalfEven_neg, fun x y ↦ ⟨divided_eq_error_iff, divided_eq_error_iff⟩,
    fun x y a b hx hy hsmall ↦ ?_, fun x q hx ↦ isExact_round hx⟩
  · exact divided_eq_error_iff.trans (beq_ofNat_zero_iff b)
  · exact divided_eq_error_iff.trans (beq_ofNat_zero_iff b)
  · have hnonzero : ¬ (b == Scalar.ofNat 0) = true := mt (beq_ofNat_zero_iff b).1 hb
    exact ⟨⌊a / b⌋, a - b * ⌊a / b⌋, divided_of_not hnonzero, divided_of_not hnonzero,
      isFloorDivision_floor a b⟩
  · obtain ⟨n, hround, hn⟩ := Scalar.exists_roundHalfEven x
    exact ⟨n, hround, fun m ↦ ⟨fun hm ↦ hm.eq hn, fun hm ↦ hm ▸ hn⟩⟩
  · exact ⟨isExact_floorDivide raise hx hy hsmall, isExact_modulo raise hx hy hsmall⟩

/-- Seven by minus two, and the tie at -2.5. -/
theorem divides_to_floor_and_rounds_to_even_negative :
    IsFloorDivision 7 (-2) (-4) (-1) ∧
      IsExact (Operator.floorDivide.apply 7 (-2)) (.ok (-4)) ∧
      IsExact (Operator.modulo.apply 7 (-2)) (.ok (-1)) ∧
      IsExact (Function.round.apply [-2.5]) (.ok (-2)) := by
  have hfour (raise : ℚ → ℚ → Except Error ℚ) :
      Operator.floorDivide.applyWith raise 7 (-2) = .ok (-4) :=
    congrArg divided (show Scalar.floorQuotient? (7 : ℚ) (-2) = some (-4) by decide +kernel)
  have hone (raise : ℚ → ℚ → Except Error ℚ) :
      Operator.modulo.applyWith raise 7 (-2) = .ok (-1) :=
    congrArg divided (show Scalar.remainder? (7 : ℚ) (-2) = some (-1) by decide +kernel)
  have htie : Scalar.roundHalfEven (-5 / 2 : ℚ) = -2 := by decide +kernel
  obtain ⟨hexact, -, -, -, -, hwhole, hround⟩ :=
    divides_to_floor_and_rounds_to_even fun _ _ ↦ .error .notFinite
  obtain ⟨quotient, rest, hquotient, hrest, hfloor⟩ := (hexact 7 (-2)).2.2 (by decide)
  obtain ⟨hdivided, hleft⟩ :=
    hwhole 7 (-2) 7 (-2) (by decide +kernel) (by decide +kernel) (by decide)
  rw [hfour, Except.ok.injEq] at hquotient
  rw [hone, Except.ok.injEq] at hrest
  obtain rfl : quotient = -4 := by exact_mod_cast hquotient.symm
  subst hrest
  rw [Int.cast_neg, Int.cast_ofNat, Int.cast_ofNat] at hdivided hleft
  rw [hfour] at hdivided
  rw [hone] at hleft
  exact ⟨hfloor, hdivided, hleft, htie ▸ hround (-2.5) (-5 / 2) (by decide +kernel)⟩

end Ventilation.Formula
