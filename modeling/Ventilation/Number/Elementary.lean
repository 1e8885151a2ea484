import Ventilation.Number.Binary64

/-!
Elementary functions. Their values at zero are exact: sine and tangent keep a zero as it is, and of
the powers of a zero only those with an odd exponent depend on its sign.
-/

set_option autoImplicit false

namespace Ventilation.Binary64

/-- Whether a number is whole and odd. -/
def isOdd (x : Float) : Bool :=
  match parts x with
  | .finite _ mantissa exponent =>
    let unit := twoTo (-exponent).toNat
    mantissa * twoTo exponent.toNat % (2 * unit) = unit
  | _ => false

def sin (x : Float) : Float := if x == 0 then x else x.sin

def cos (x : Float) : Float := if x == 0 then 1 else x.cos

def tan (x : Float) : Float := if x == 0 then x else x.tan

def exp (x : Float) : Float := if x == 0 then 1 else x.exp

def pow (base exponent : Float) : Float :=
  if exponent == 0 then 1
  else if base == 0 then
    if isOdd exponent then if exponent < 0 then 1 / base else base
    else Float.pow 0 exponent
  else base.pow exponent

end Ventilation.Binary64
