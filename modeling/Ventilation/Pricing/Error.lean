import Ventilation.Catalog.Basic
import Ventilation.Measure.Error
import Ventilation.Number.Text

/-!
Why an item has no price. Whoever asked is shown a short label instead.
-/

set_option autoImplicit false

namespace Ventilation

inductive PricingError where
  | productNotFound (model : String)
  | priceNotFound (model size : String)
  | sizeNotFound (model size : String)
  | measure (error : MeasureError)
  | invalidMultiplier (value : Float)
  | invalidPrice (value : Float)
  | catalog (error : CatalogError)

namespace PricingError

/-- The wording of an error; that of a failing catalog is left to the catalog. -/
def message : PricingError → String
  | productNotFound model => "product not found: " ++ model
  | priceNotFound model size => "price not available for " ++ model ++ " at " ++ size
  | sizeNotFound model size => "size not available for " ++ model ++ ": " ++ size
  | measure error => error.message
  | invalidMultiplier value => "invalid special color multiplier: " ++ Binary64.display value
  | invalidPrice value => "price is not a valid amount: " ++ Binary64.display value
  | catalog _ => ""

/-- The wording of an overflow, if that is the error. -/
def overflow? : PricingError → Option String
  | catalog error => error.overflow?
  | _ => none

def label : PricingError → String
  | productNotFound _ => "product not found"
  | priceNotFound _ _ | sizeNotFound _ _ => "size not available"
  | measure _ => "invalid size"
  | invalidMultiplier _ => "invalid multiplier"
  | invalidPrice _ => "invalid price"
  | catalog _ => "price list unavailable"

end PricingError

/-- Answers of the catalog as part of pricing. -/
def fromCatalog {α : Type} : Except CatalogError α → Except PricingError α
  | .ok a => .ok a
  | .error e => .error (.catalog e)

/-- Readings of sizes as part of pricing. -/
def fromMeasure {α : Type} : Except MeasureError α → Except PricingError α
  | .ok a => .ok a
  | .error e => .error (.measure e)

end Ventilation
