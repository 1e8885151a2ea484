import Ventilation.Pricing.Error
import Ventilation.Pricing.Modifier

/-!
The chain that every priced item goes through. The table gives `TB` and `WD`; the TB modifier turns
`TB` into the base price `BP`, the WD modifier turns `WD` into `MWD`. Without a damper the finish is
applied to `BP`; with one the WD modifier is applied once more to `MWD`, and the finish to that.
-/

set_option autoImplicit false

namespace Ventilation

/-- Amounts of one priced item; `price` is the final one, rounded half up, surcharge included. -/
structure PriceBreakdown where
  tb : Float
  wd : Float
  bp : Float
  mwd : Float
  surcharge : Float
  price : Int

/-- The nearest whole number, a tie going up, as a 64-bit integer. -/
def roundHalfUp (x : Float) : Int := Binary64.toInt64 (Binary64.floor (x + 0.5))

/-- The whole price of an amount that is finite, not negative and below 2 ^ 63. -/
def wholePrice (x : Float) : Except PricingError Int :=
  if !x.isFinite || x < 0 || 9223372036854775808 ≤ x then .error (.invalidPrice x)
  else .ok (roundHalfUp x)

def PriceBreakdown.withSurcharge (b : PriceBreakdown) (surcharge : Float) :
    Except PricingError PriceBreakdown :=
  (wholePrice (Binary64.ofInt b.price + surcharge)).map fun price =>
    { b with surcharge := b.surcharge + surcharge, price }

/-- The size an item is priced at, as its formulas see it. -/
inductive PricedSize where
  /-- Linear items have their matched side as width and their length as height. -/
  | rect (width height : Float)
  | diameter (inches : Float)
  | length (inches : Float)
  | none

def PricedSize.bindings : PricedSize → Variables
  | .rect width height => (Variables.empty.set "WIDTH" width).set "HEIGHT" height
  | .diameter inches => Variables.empty.set "SIZE" inches
  | .length inches => Variables.empty.set "HEIGHT" inches
  | .none => Variables.empty

/-- What of an item does not depend on the table. -/
structure ChainInput where
  product : Product
  finish : Option Finish
  withDamper : Bool
  specialColorMultiplier : Float

/-- The amount after the finish. A special colour has the caller's multiplier; a finish that is
unknown or not offered changes nothing. -/
def ChainInput.applyFinish (input : ChainInput) (base : Float) (context : Formula.Context) :
    Float :=
  match input.finish with
  | none => base
  | some .specialColor => base * input.specialColorMultiplier
  | some finish =>
    let bindings := (context.bindings.set "BP" base).set "MWD" base
    Modifier.applyIfAny (input.product.finishMultiplier? finish) base { context with bindings }

/-- Amounts of an item before the last rounding. -/
structure ChainStages where
  tb : Float
  wd : Float
  bp : Float
  mwd : Float
  /-- What the finish is applied to. -/
  base : Float
  finished : Float

def ChainInput.stages (input : ChainInput) (tb wd : Option Float) (size : PricedSize)
    (price? : String → Option Float) : ChainStages :=
  let tb := tb.getD 0
  let wd := wd.getD 0
  let tabulated := (size.bindings.set "TB" tb).set "WD" wd
  let bp := Modifier.applyIfAny input.product.tbModifier? tb ⟨tabulated, price?⟩
  let withBase := tabulated.set "BP" bp
  let mwd := Modifier.applyIfAny input.product.wdModifier? wd ⟨withBase, price?⟩
  let context : Formula.Context := ⟨withBase.set "MWD" mwd, price?⟩
  let base :=
    if input.withDamper then Modifier.applyIfAny input.product.wdModifier? mwd context else bp
  ⟨tb, wd, bp, mwd, base, input.applyFinish base context⟩

/-- Prices an item from the two columns of the table, a missing one counting as zero. -/
def ChainInput.run (input : ChainInput) (tb wd : Option Float) (size : PricedSize)
    (price? : String → Option Float) : Except PricingError PriceBreakdown :=
  let s := input.stages tb wd size price?
  (wholePrice s.finished).map fun price => ⟨s.tb, s.wd, s.bp, s.mwd, 0, price⟩

/-- The price of another model at the size of the item. A model that cannot be priced there, for
whatever reason, has none. -/
def Catalog.referencePrice? (catalog : Catalog Float) (size : PricedSize) (model : String) :
    Option Float :=
  match catalog.product? model with
  | .ok (some product) =>
    let found := match size with
      | .rect width height => catalog.priceAt? product.tableId height width
      | .diameter inches => catalog.priceAtDiameter? product.tableId inches
      | .length _ | .none => .ok none
    match found with
    | .ok price => price.bind TablePrice.tb
    | .error _ => none
  | _ => none

end Ventilation
