import Mathlib.Data.List.Forall2
import Ventilation.Formula.Basic
import Ventilation.Proofs.Number.Coincidence

/-!
# Formulas of numbers that coincide

A formula cannot tell the two zeros apart: in contexts whose variables and prices coincide it fails
with the same error or has values that coincide. Every division and every power refuses a divisor
or a base of zero before its sign could matter.
-/

set_option autoImplicit false
set_option relaxedAutoImplicit false

namespace Ventilation

open Binary64

/-! ### Results that correspond -/

/-- The same error, or values in a relation. -/
inductive Corresponds {ε α : Type} (R : α → α → Prop) : Except ε α → Except ε α → Prop
  | error (e : ε) : Corresponds R (.error e) (.error e)
  | ok {a b : α} (h : R a b) : Corresponds R (.ok a) (.ok b)

namespace Corresponds

variable {ε α β : Type} {R : α → α → Prop} {S : β → β → Prop} {x y : Except ε α}

theorem bind {f g : α → Except ε β} (h : Corresponds R x y)
    (hf : ∀ a b, R a b → Corresponds S (f a) (g b)) : Corresponds S (x >>= f) (y >>= g) := by
  cases h with
  | error e => exact .error e
  | ok h => exact hf _ _ h

theorem bind_right {f g : α → Except ε β} (x : Except ε α) (hf : ∀ a, Corresponds S (f a) (g a)) :
    Corresponds S (x >>= f) (x >>= g) := by
  cases x with
  | error e => exact .error e
  | ok a => exact hf a

theorem map {f g : α → β} (h : Corresponds R x y) (hf : ∀ a b, R a b → S (f a) (g b)) :
    Corresponds S (x.map f) (y.map g) := by
  cases h with
  | error e => exact .error e
  | ok h => exact .ok (hf _ _ h)

theorem of_eq (hR : ∀ a, R a a) (h : x = y) : Corresponds R x y := by
  subst h
  cases x with
  | error e => exact .error e
  | ok a => exact .ok (hR a)

theorem ite {p q : Prop} [Decidable p] [Decidable q] {x' y' : Except ε α} (hpq : p ↔ q)
    (hx : Corresponds R x y) (hx' : Corresponds R x' y') :
    Corresponds R (if p then x else x') (if q then y else y') := by
  by_cases hp : p
  · rwa [if_pos hp, if_pos (hpq.1 hp)]
  · rwa [if_neg hp, if_neg (hpq.not.1 hp)]

end Corresponds

/-! ### Variables -/

section Variables

variable {x x' : Float}

/-- The same names, with values that coincide. -/
def CoincidentVariables (v w : Variables) : Prop :=
  ∀ name, Option.Rel Coincide (v.get? name) (w.get? name)

theorem lookup_filter_ne {name other : String} (entries : List (String × Float))
    (h : other ≠ name) :
    (entries.filter fun entry ↦ entry.1 ≠ name).lookup other = entries.lookup other := by
  induction entries with
  | nil => rfl
  | cons entry entries ih =>
    by_cases hentry : entry.1 = name
    · have hother : (other == entry.1) = false := by
        rw [hentry]
        exact beq_false_of_ne h
      rw [List.filter_cons_of_neg (by simp [hentry]), ih, List.lookup_cons, hother]
    · rw [List.filter_cons_of_pos (by simp [hentry]), List.lookup_cons, List.lookup_cons, ih]

theorem get?_set (v : Variables) (name other : String) (value : Float) :
    (v.set name value).get? other = if other = name then some value else v.get? other := by
  unfold Variables.set Variables.get?
  by_cases h : other = name
  · rw [if_pos h, h, List.lookup_cons, beq_self_eq_true]
  · rw [if_neg h, List.lookup_cons, beq_false_of_ne h, lookup_filter_ne _ h]

namespace CoincidentVariables

variable {v w : Variables}

theorem refl (v : Variables) : CoincidentVariables v v := by
  intro name
  cases v.get? name with
  | none => exact .none
  | some x => exact .some (.refl x)

theorem set (h : CoincidentVariables v w) (name : String) (hx : Coincide x x') :
    CoincidentVariables (v.set name x) (w.set name x') := by
  intro other
  rw [get?_set, get?_set]
  split
  · exact .some hx
  · exact h other

end CoincidentVariables

end Variables

namespace Formula

variable {x x' y y' : Float}

/-! ### Functions and operators -/

theorem inDomain_corresponds (operation : String) (h : Coincide x x') :
    Corresponds Coincide (Function.inDomain operation x) (Function.inDomain operation x') :=
  .ite (Bool.eq_iff_iff.1 h.isNaN_eq) (.error _) (.ok h)

/-- A value that has to be there. -/
theorem found_corresponds (error : Error) {value value' : Option Float} :
    Option.Rel Coincide value value' →
      Corresponds Coincide
        (match value with
          | some x => Except.ok x
          | none => .error error)
        (match value' with
          | some x => .ok x
          | none => .error error) := by
  intro h
  cases h with
  | none => exact .error error
  | some h => exact .ok h

theorem rel_getElem? {args args' : List Float} (h : List.Forall₂ Coincide args args') (i : ℕ) :
    Option.Rel Coincide args[i]? args'[i]? := by
  induction h generalizing i with
  | nil => exact .none
  | cons hx _ ih =>
    cases i with
    | zero => exact .some hx
    | succ i => exact ih i

theorem power_refused (hx : Coincide x x') (hy : Coincide y y') :
    (x == 0 && decide (y < 0)) = (x' == 0 && decide (y' < 0)) := by
  rw [hx.beq_eq_beq (.refl 0), decide_eq_decide.2 (hy.lt_iff_lt (.refl 0))]

theorem powers_correspond (operation : String) {error : Error} (hx : Coincide x x')
    (hy : Coincide y y') :
    Corresponds Coincide
      (if x == 0 && y < 0 then .error error else Function.inDomain operation (pow x y))
      (if x' == 0 && y' < 0 then .error error else Function.inDomain operation (pow x' y')) := by
  rw [← power_refused hx hy]
  cases h : x == 0 && decide (y < 0) with
  | true => exact .error error
  | false => exact inDomain_corresponds operation (hx.pow hy h)

namespace Function

variable (f : Function) {args args' : List Float}

theorem argument_corresponds (h : List.Forall₂ Coincide args args') (index : ℕ) :
    Corresponds Coincide (f.argument args index) (f.argument args' index) := by
  exact found_corresponds _ (rel_getElem? h (index - 1))

theorem roundAt_corresponds {digits digits' : Option Float} (hx : Coincide x x')
    (hdigits : Option.Rel Coincide digits digits') :
    Corresponds Coincide (roundAt x digits) (roundAt x' digits') := by
  cases hdigits with
  | none => exact .ok hx.roundHalfEven
  | some h =>
    have hscale := h.toIntWithin_eq (-twoTo 31) (twoTo 31 - 1)
    unfold roundAt toInt32
    simp only [← hscale]
    refine .ite ?_ (.error _) (.ok ((hx.mul (.refl _)).roundHalfEven.div _))
    rw [bne, bne, h.fract.beq_eq_beq (.refl 0)]

theorem logarithm_corresponds {base base' : Option Float} (hx : Coincide x x')
    (hbase : Option.Rel Coincide base base') :
    Corresponds Coincide (logarithm x base) (logarithm x' base') := by
  unfold logarithm
  by_cases hlow : x ≤ 0
  · rw [if_pos hlow, if_pos ((hx.le_iff_le (.refl 0)).1 hlow)]
    exact .error _
  · obtain rfl := hx.eq_of_not_le_zero hlow
    rw [if_neg hlow, if_neg hlow]
    cases hbase with
    | none => exact .ok (.refl _)
    | @some base base' hbase =>
      by_cases hlow' : base ≤ 0
      · simp only [if_pos hlow', if_pos ((hbase.le_iff_le (.refl 0)).1 hlow')]
        exact .error _
      · obtain rfl := hbase.eq_of_not_le_zero hlow'
        exact .of_eq Coincide.refl rfl

theorem choose_corresponds {better : Float → Float → Float}
    (hbetter : ∀ {x x' y y'}, Coincide x x' → Coincide y y' →
      Coincide (better x y) (better x' y'))
    (h : List.Forall₂ Coincide args args') :
    Corresponds Coincide (f.choose better args) (f.choose better args') := by
  cases h with
  | nil => exact .error _
  | @cons x x' rest rest' hx hrest =>
    refine .ok ?_
    induction hrest generalizing x x' with
    | nil => exact hx
    | cons hy _ ih => exact ih (hbetter hx hy)

theorem apply_corresponds (h : List.Forall₂ Coincide args args') :
    Corresponds Coincide (f.apply args) (f.apply args') := by
  have hfirst := f.argument_corresponds h 1
  have hsecond := rel_getElem? h 1
  cases f with
  | min => exact choose_corresponds _ Coincide.smaller h
  | max => exact choose_corresponds _ Coincide.larger h
  | sqrt =>
    exact hfirst.bind fun x x' hx ↦ .ite (hx.lt_iff_lt (.refl 0)) (.error _) (.ok hx.sqrt)
  | pow =>
    exact hfirst.bind fun x x' hx ↦ (argument_corresponds _ h 2).bind fun y y' hy ↦
      powers_correspond "pow" hx hy
  | ceil => exact hfirst.bind fun x x' hx ↦ .ok (hx.toWhole .up)
  | floor => exact hfirst.bind fun x x' hx ↦ .ok (hx.toWhole .down)
  | abs => exact hfirst.bind fun x x' hx ↦ .ok hx.abs
  | round => exact hfirst.bind fun x x' hx ↦ roundAt_corresponds hx hsecond
  | sin => exact hfirst.bind fun x x' hx ↦ inDomain_corresponds "sin" hx.sin
  | cos => exact hfirst.bind fun x x' hx ↦ inDomain_corresponds "cos" hx.cos
  | tan => exact hfirst.bind fun x x' hx ↦ inDomain_corresponds "tan" hx.tan
  | log => exact hfirst.bind fun x x' hx ↦ logarithm_corresponds hx hsecond
  | log10 =>
    refine hfirst.bind fun x x' hx ↦ ?_
    by_cases hlow : x ≤ 0
    · rw [if_pos hlow, if_pos ((hx.le_iff_le (.refl 0)).1 hlow)]
      exact .error _
    · obtain rfl := hx.eq_of_not_le_zero hlow
      exact .of_eq Coincide.refl rfl
  | exp => exact hfirst.bind fun x x' hx ↦ .ok hx.exp

end Function

theorem divided_corresponds {value value' : Option Float} (h : Option.Rel Coincide value value') :
    Corresponds Coincide (divided value) (divided value') := by
  cases h with
  | none => exact .error _
  | some hx => exact .ok hx

/-- What a division refuses or makes of numbers that coincide. -/
theorem quotients_rel {f g : Float} (hy : Coincide y y')
    (h : (y == 0) = false → Coincide f g) :
    Option.Rel Coincide (if y == Scalar.ofNat 0 then none else some f)
      (if y' == Scalar.ofNat 0 then none else some g) := by
  have hzero : (Scalar.ofNat 0 : Float) = 0 := rfl
  have hbeq := hy.beq_eq_beq (.refl 0)
  rw [hzero]
  cases hy0 : y == 0 with
  | true =>
    rw [← hbeq, hy0]
    exact .none
  | false =>
    rw [← hbeq, hy0]
    exact .some (h hy0)

theorem Operator.apply_corresponds (op : Operator) (hx : Coincide x x') (hy : Coincide y y') :
    Corresponds Coincide (op.apply x y) (op.apply x' y') := by
  cases op with
  | add => exact .ok (hx.add hy)
  | subtract => exact .ok (hx.sub hy)
  | multiply => exact .ok (hx.mul hy)
  | divide => exact divided_corresponds (quotients_rel hy (hx.div_of_ne_zero hy))
  | floorDivide =>
    exact divided_corresponds (quotients_rel hy fun hne ↦ (hx.div_of_ne_zero hy hne).toWhole .down)
  | modulo =>
    exact divided_corresponds (quotients_rel hy fun hne ↦
      hx.sub (hy.mul ((hx.div_of_ne_zero hy hne).toWhole .down)))
  | power => exact powers_correspond _ hx hy

theorem Sign.apply_coincide (op : Sign) (hx : Coincide x x') :
    Coincide (op.apply x) (op.apply x') := by
  cases op with
  | negate => exact hx.neg
  | plus => exact hx

/-! ### Trees and texts -/

/-- The variables of two contexts, and the prices of other models, coincide. -/
structure CoincidentContexts (a b : Context) : Prop where
  binding : CoincidentVariables a.bindings b.bindings
  price : ∀ model, Option.Rel Coincide (a.price? model) (b.price? model)

theorem CoincidentContexts.of_bindings {v w : Variables} {price? price'? : String → Option Float}
    (h : CoincidentVariables v w)
    (hprice : ∀ model, Option.Rel Coincide (price? model) (price'? model)) :
    CoincidentContexts ⟨v, price?⟩ ⟨w, price'?⟩ :=
  ⟨h, hprice⟩

variable {a b : Context}

namespace Expr

mutual

theorem value_corresponds (h : CoincidentContexts a b) (tree : Expr) :
    Corresponds Coincide (tree.value a) (tree.value b) := by
  cases tree with
  | number x => exact .ok (.refl x)
  | var name =>
    unfold value
    exact found_corresponds _ (h.binding name)
  | model name =>
    unfold value
    exact found_corresponds _ (h.price name)
  | sign op operand =>
    unfold value
    exact (value_corresponds h operand).map fun _ _ hx ↦ op.apply_coincide hx
  | binary op left right =>
    unfold value
    exact (value_corresponds h left).bind fun _ _ hx ↦
      (value_corresponds h right).bind fun _ _ hy ↦ op.apply_corresponds hx hy
  | call name args =>
    unfold value
    cases Function.ofName? name with
    | none => exact .error _
    | some function =>
      exact .bind_right _ fun _ ↦
        (valuesOf_corresponds h args).bind fun _ _ hargs ↦ function.apply_corresponds hargs

theorem valuesOf_corresponds (h : CoincidentContexts a b) (trees : List Expr) :
    Corresponds (List.Forall₂ Coincide) (valuesOf a trees) (valuesOf b trees) := by
  cases trees with
  | nil => exact .ok .nil
  | cons tree trees =>
    unfold valuesOf
    exact (value_corresponds h tree).bind fun _ _ hx ↦
      (valuesOf_corresponds h trees).bind fun _ _ hxs ↦ .ok (.cons hx hxs)

end

theorem evaluate_corresponds (h : CoincidentContexts a b) (tree : Expr) :
    Corresponds Coincide (tree.evaluate a) (tree.evaluate b) :=
  (value_corresponds h tree).bind fun _ _ hx ↦
    .ite (Bool.eq_iff_iff.1 hx.isFinite_eq) (.ok hx) (.error _)

end Expr

theorem evaluateText_corresponds (h : CoincidentContexts a b) (text : String) :
    Corresponds Coincide (evaluateText text a) (evaluateText text b) :=
  .bind_right _ fun f ↦ f.tree.evaluate_corresponds h

end Formula

end Ventilation
