import Mathlib.Tactic.Basic
import Ventilation.Formula.Basic

/-!
# What a formula depends on

A formula has the same value, or the same error, in two contexts that agree on the variables and
the models which occur in it.
-/

set_option autoImplicit false
set_option relaxedAutoImplicit false

namespace Ventilation.Formula

/-- Two contexts give the same values to some variables and the same prices to some models. -/
structure AgreeOn (a b : Context) (names models : List String) : Prop where
  binding : ∀ name ∈ names, a.bindings.get? name = b.bindings.get? name
  price : ∀ model ∈ models, a.price? model = b.price? model

variable {a b : Context}

namespace AgreeOn

variable {names others models more : List String}

theorem append_left (h : AgreeOn a b (names ++ others) (models ++ more)) :
    AgreeOn a b names models where
  binding name hname := h.binding name (List.mem_append_left others hname)
  price model hmodel := h.price model (List.mem_append_left more hmodel)

theorem append_right (h : AgreeOn a b (names ++ others) (models ++ more)) :
    AgreeOn a b others more where
  binding name hname := h.binding name (List.mem_append_right names hname)
  price model hmodel := h.price model (List.mem_append_right models hmodel)

end AgreeOn

namespace Expr

mutual

theorem value_eq_of_agreeOn (tree : Expr) (h : AgreeOn a b tree.variableNames tree.models) :
    tree.value a = tree.value b := by
  cases tree with
  | number x => rfl
  | var name =>
    unfold value
    rw [h.binding name List.mem_cons_self]
  | model name =>
    unfold value
    rw [h.price name List.mem_cons_self]
  | sign op operand =>
    unfold value
    rw [value_eq_of_agreeOn operand h]
  | binary op left right =>
    unfold value
    rw [value_eq_of_agreeOn left h.append_left, value_eq_of_agreeOn right h.append_right]
  | call function args =>
    unfold value
    rw [valuesOf_eq_of_agreeOn args h]

theorem valuesOf_eq_of_agreeOn (trees : List Expr)
    (h : AgreeOn a b (variableNamesOf trees) (modelsOf trees)) :
    valuesOf a trees = valuesOf b trees := by
  cases trees with
  | nil => rfl
  | cons tree trees =>
    unfold valuesOf
    rw [value_eq_of_agreeOn tree h.append_left, valuesOf_eq_of_agreeOn trees h.append_right]

end

end Expr

/-- A text is evaluated alike in contexts that agree on what its formula mentions. -/
theorem evaluateText_eq_of_agreeOn {text : String}
    (h : ∀ f, ofText? text = .ok f → AgreeOn a b f.tree.variableNames f.tree.models) :
    evaluateText text a = evaluateText text b := by
  unfold evaluateText
  cases hf : ofText? text with
  | error error => rfl
  | ok f =>
    change f.tree.evaluate a = f.tree.evaluate b
    unfold Expr.evaluate
    rw [f.tree.value_eq_of_agreeOn (h f hf)]

/-- A text is evaluated alike wherever the models that its formula refers to cost the same. -/
theorem evaluateText_eq_of_price {text : String} {bindings : Variables}
    {price? other? : String → Option Float}
    (h : ∀ f, ofText? text = .ok f → ∀ model ∈ f.tree.models, price? model = other? model) :
    evaluateText text ⟨bindings, price?⟩ = evaluateText text ⟨bindings, other?⟩ :=
  evaluateText_eq_of_agreeOn fun f hf ↦ ⟨fun _ _ ↦ rfl, h f hf⟩

end Ventilation.Formula
