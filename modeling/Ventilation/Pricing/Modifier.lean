import Ventilation.Formula.Basic

/-!
Stored modifiers. A slot holds free text: a number multiplies the amount it is applied to, a
formula replaces it by its value, and what is neither, or a formula without a value, leaves the
amount as it is.
-/

set_option autoImplicit false

namespace Ventilation.Modifier

open Text

/-- The value of a text that is a finite number and nothing else. -/
def number? (text : String) : Option Float :=
  (Binary64.read (trim text.toList)).filter Float.isFinite

/-- The variables, operators and functions by which a text is taken for a formula. -/
def formulaMarks : List String :=
  ["TB", "WD", "BP", "MWD", "WIDTH", "HEIGHT", "SIZE", "[", "]", "(", ")", "+", "-", "*", "/",
    "%", "sqrt", "pow", "ceil", "floor", "abs", "round", "min", "max", "sin", "cos", "tan", "log",
    "exp"]

def looksLikeFormula (text : String) : Bool :=
  formulaMarks.any fun mark => occurs mark.toList text.toList

/-- The amount `base` after a modifier. -/
def apply (modifier : String) (base : Float) (context : Formula.Context) : Float :=
  match number? modifier with
  | some factor => base * factor
  | none =>
    if looksLikeFormula modifier then
      match Formula.evaluateText modifier context with
      | .ok value => value
      | .error _ => base
    else base

/-- The amount after the modifier of a slot, if it holds one. -/
def applyIfAny (modifier : Option String) (base : Float) (context : Formula.Context) : Float :=
  match modifier with
  | some text => apply text base context
  | none => base

end Ventilation.Modifier
