import Ventilation.Number.Binary64

/-!
The arithmetic that sizes, rates and amounts need. Prices are computed in binary64; the same rules
over the rationals have no rounding.
-/

set_option autoImplicit false

namespace Ventilation

/-- Numbers with order, the four operations and whole parts. `a == a` fails for what is no
number. -/
class Scalar (α : Type) extends Add α, Sub α, Mul α, Div α, LT α, LE α, BEq α where
  decidableLT : DecidableLT α
  decidableLE : DecidableLE α
  ofNat : Nat → α
  floor : α → α
  ceil : α → α
  trunc : α → α

attribute [reducible, instance] Scalar.decidableLT Scalar.decidableLE

instance : Scalar Float where
  decidableLT := inferInstance
  decidableLE := inferInstance
  ofNat n := Binary64.nearest false n 1
  floor := Binary64.floor
  ceil := Binary64.ceil
  trunc := Binary64.trunc

instance : Scalar Rat where
  decidableLT := inferInstance
  decidableLE := inferInstance
  ofNat n := n
  floor x := x.floor
  ceil x := x.ceil
  trunc x := if x < 0 then x.ceil else x.floor

namespace Scalar

variable {α : Type} [Scalar α]

/-- The larger operand, the first of two equal ones; an operand that is no number is passed over. -/
def larger (a b : α) : α :=
  if a == a then if a < b then b else a else b

/-- The smaller operand, the first of two equal ones; an operand that is no number is passed
over. -/
def smaller (a b : α) : α :=
  if a == a then if b < a then b else a else b

/-- What is left of a whole number after the pairs in it, with the sign of the number. -/
def unpaired (whole : α) : α := whole - ofNat 2 * trunc (whole / ofNat 2)

/-- The nearest whole number, a tie to the even one. -/
def roundHalfEven (x : α) : α :=
  let below := floor x
  let rest := x - below
  let half : α := ofNat 1 / ofNat 2
  if half < rest then below + ofNat 1
  else if rest < half then below
  else if unpaired below == ofNat 0 then below
  else below + ofNat 1

end Scalar

end Ventilation
