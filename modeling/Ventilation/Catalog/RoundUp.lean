import Ventilation.Catalog.Basic

/-!
Rounding a requested size up to a tabulated one. A size that covers the request qualifies; of these
the one with the least total overshoot is taken, then the narrowest, then the lowest. An exact
match has no overshoot.
-/

set_option autoImplicit false

namespace Ventilation

variable {α : Type} [Scalar α]

/-- By how much a width and height go beyond the requested ones. -/
def overshoot (width height : α) (size : α × α) : α :=
  if size.1 == width && size.2 == height then Scalar.ofNat 0
  else (size.1 - width) + (size.2 - height)

/-- Whether size `a` is to be taken rather than size `b`. -/
def fitsBetter (width height : α) (a b : α × α) : Bool :=
  let x := overshoot width height a
  let y := overshoot width height b
  decide (x < y) || x == y &&
    (decide (a.1 < b.1) || a.1 == b.1 && decide (a.2 < b.2))

/-- The smallest size, as width and height, that covers the requested one. -/
def roundUpSize? (sizes : List (α × α)) (width height : α) : Option (α × α) :=
  foremost? (fitsBetter width height)
    (sizes.filter fun size => decide (width ≤ size.1) && decide (height ≤ size.2))

/-- The smallest value at or above the requested one. -/
def roundUpValue? (values : List α) (requested : α) : Option α :=
  foremost? (fun a b => decide (a < b)) (values.filter fun v => decide (requested ≤ v))

end Ventilation
