import Ventilation.Formula.Expr
import Ventilation.Formula.Function
import Ventilation.Formula.Variables

/-!
The value of a formula. Every part of the tree is evaluated, from left to right, and the first
failure is the answer. A remainder has the sign of its divisor.
-/

set_option autoImplicit false

namespace Ventilation

namespace Scalar

variable {α : Type} [Scalar α]

/-- The quotient, unless the divisor is zero. -/
def quotient? (a b : α) : Option α :=
  if b == ofNat 0 then none else some (a / b)

/-- The quotient rounded down, unless the divisor is zero. -/
def floorQuotient? (a b : α) : Option α :=
  if b == ofNat 0 then none else some (floor (a / b))

/-- What is left of `a` after the multiples of `b` in it, unless `b` is zero. -/
def remainder? (a b : α) : Option α :=
  if b == ofNat 0 then none else some (a - b * floor (a / b))

end Scalar

namespace Formula

/-- What a formula is evaluated in: the values of variables, and the prices of other models as far
as they have one. -/
structure Context where
  bindings : Variables
  price? : String → Option Float

def divided {α : Type} (value : Option α) : Except Error α :=
  match value with
  | some x => .ok x
  | none => .error .divisionByZero

def Sign.apply : Sign → Float → Float
  | negate, x => -x
  | plus, x => x

/-- The arithmetic of an operator, over any numbers that have powers. -/
def Operator.applyWith {α : Type} [Scalar α] (raise : α → α → Except Error α) (op : Operator)
    (left right : α) : Except Error α :=
  match op with
  | add => .ok (left + right)
  | subtract => .ok (left - right)
  | multiply => .ok (left * right)
  | divide => divided (Scalar.quotient? left right)
  | floorDivide => divided (Scalar.floorQuotient? left right)
  | modulo => divided (Scalar.remainder? left right)
  | power => raise left right

/-- A power in binary64; a negative power of zero is a division. -/
def raised (base exponent : Float) : Except Error Float :=
  if base == 0 && exponent < 0 then .error .divisionByZero
  else Function.inDomain Operator.power.symbol (Binary64.pow base exponent)

def Operator.apply (op : Operator) (left right : Float) : Except Error Float :=
  op.applyWith raised left right

namespace Expr

mutual

/-- The value of a tree, which may still be infinite or no number. -/
def value (context : Context) : Expr → Except Error Float
  | number x => .ok x
  | var name =>
    match context.bindings.get? name with
    | some x => .ok x
    | none => .error (.unknownVariable name)
  | model name =>
    match context.price? name with
    | some x => .ok x
    | none => .error (.unresolvedModel name)
  | sign op operand => (operand.value context).map op.apply
  | binary op left right => do
    let l ← left.value context
    let r ← right.value context
    op.apply l r
  | call name args =>
    match Function.ofName? name with
    | none => .error (.unknownFunction name)
    | some function => do
      function.checkArity args.length
      let values ← valuesOf context args
      function.apply values

def valuesOf (context : Context) : List Expr → Except Error (List Float)
  | [] => .ok []
  | e :: es => do
    let x ← e.value context
    let xs ← valuesOf context es
    return x :: xs

end

/-- The finite value of a tree. -/
def evaluate (context : Context) (e : Expr) : Except Error Float := do
  let x ← e.value context
  if x.isFinite then .ok x else .error .notFinite

end Expr

end Formula

end Ventilation
