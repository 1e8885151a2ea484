import Ventilation.Catalog.RoundUp
import Ventilation.Pricing.HandGear

/-!
The pricing engine: a catalog, its options and the families with prices of their own. It answers
which sizes are tabulated for a request and what an item costs.
-/

set_option autoImplicit false

namespace Ventilation

/-- How an item is ordered, apart from its size. -/
structure ItemOptions where
  finish : Option Finish
  withDamper : Bool
  specialColorMultiplier : Option Float

/-- Why a catalog file cannot be priced from. -/
inductive OpenError where
  | catalog (error : CatalogError)
  | config (error : ConfigError)

/-- An item without finish and damper. -/
def ItemOptions.standard : ItemOptions := ⟨none, false, none⟩

structure Engine where
  catalog : Catalog Float
  options : EngineOptions
  overrides : OverrideRegistry

/-- The price of a rectangle: beyond the table by the rate of its edge, within it as tabulated. The
rate with damper falls back to the one without. -/
def Catalog.rectangularPrice? {α : Type} [Scalar α] (catalog : Catalog α) (tableId : Int)
    (d : Dimensions α) : Except CatalogError (Option (TablePrice α)) := do
  match ← catalog.exceededRate? tableId d.width d.height false with
  | some rate => do
    let tb := d.height * d.width * rate
    let wd := (← catalog.exceededRate? tableId d.width d.height true).map fun rate =>
      d.height * d.width * rate
    return some ⟨some tb, some (wd.getD tb)⟩
  | none => catalog.priceAt? tableId d.height d.width

namespace Engine

/-- An engine over a catalog, if the options are usable and no model is in two families. -/
def build (catalog : Catalog Float) (options : EngineOptions) : Except ConfigError Engine := do
  options.validate
  let overrides ← OverrideRegistry.ofOptions options
  return ⟨catalog, options, overrides⟩

/-- An engine over a catalog file. That there is no such file is found before the options are
looked at. -/
def ofFile (file : Option (Catalog Float)) (options : EngineOptions) : Except OpenError Engine :=
  match file with
  | none => .error (.catalog .noFile)
  | some catalog => (build catalog options).mapError .config

/-! The catalog -/

def product (e : Engine) (model : String) : Except PricingError Product := do
  match ← fromCatalog (e.catalog.product? model) with
  | some product => return product
  | none => .error (.productNotFound model)

def availableFinishes (e : Engine) (model : String) : Except PricingError (List String) :=
  (e.product model).map Product.availableFinishes

def hasDamper (e : Engine) (model : String) : Except PricingError Bool :=
  (e.product model).map Product.hasDamper

def shape (e : Engine) (model : String) : Except PricingError Shape := do
  let _ ← e.product model
  fromCatalog (e.catalog.shape model)

/-- The first model whose name contains the given one, in any letter case. -/
def findFilter? (e : Engine) (name : String) : Except PricingError (Option String) := do
  let needle := Text.lowercase (Text.trim name.toList)
  if needle.isEmpty then return none
  let models ← fromCatalog e.catalog.models
  return models.find? fun model => Text.occurs needle (Text.lowercase model.toList)

/-! Rounding up to tabulated sizes -/

def roundRect? (e : Engine) (model : String) (width height : Float) :
    Except PricingError (Option String) := do
  let product ← e.product model
  let sizes ← fromCatalog (e.catalog.rectangularSizes product.tableId)
  return (roundUpSize? sizes width height).map fun size => Size.rectText size.1 size.2

/-- A diameter is cut to whole inches before it is rounded up. -/
def roundDiameter? (e : Engine) (model : String) (diameter : Float) :
    Except PricingError (Option String) := do
  let product ← e.product model
  let sizes ← fromCatalog (e.catalog.diameters product.tableId)
  return (roundUpValue? sizes (Binary64.trunc diameter)).map Size.diameterText

/-- The matched side of a linear item, cut to whole inches before it is rounded up. -/
def roundFoot? (e : Engine) (model : String) (width : Float) :
    Except PricingError (Option Float) := do
  let product ← e.product model
  let sizes ← fromCatalog (e.catalog.footSizes product.tableId)
  return roundUpValue? sizes (Binary64.trunc width)

/-! Prices -/

/-- Runs the chain over a table price, if it has the column that the item is sold from and the
multiplier of special colours is a positive number. -/
def chain (e : Engine) (product : Product) (item : ItemOptions) (price : TablePrice Float)
    (size : PricedSize) (label : String) : Except PricingError PriceBreakdown :=
  if (price.base? item.withDamper).isNone then .error (.priceNotFound product.model label)
  else
    let multiplier := item.specialColorMultiplier.getD e.options.specialColorMultiplier
    if !multiplier.isFinite || multiplier ≤ 0 then .error (.invalidMultiplier multiplier)
    else
      let input : ChainInput := ⟨product, item.finish, item.withDamper, multiplier⟩
      input.run price.tb price.wd size (e.catalog.referencePrice? size)

/-- A price that has to be there. -/
def required {α : Type} (model size : String) (price : Option α) : Except PricingError α :=
  match price with
  | some price => .ok price
  | none => .error (.priceNotFound model size)

/-- Prices a rectangular item by a text such as `12" x 8"`. -/
def priceRect (e : Engine) (model : String) (item : ItemOptions) (size : String) :
    Except PricingError PriceBreakdown := do
  let d ← fromMeasure (Size.ofText? size)
  let product ← e.product model
  let family := e.overrides.familyOf? model
  let panelled ← match family with
    | some family => family.priceOversized? e.catalog product d item.withDamper
    | none => pure none
  match panelled with
  | some breakdown => return breakdown
  | none => do
    let found ← fromCatalog (e.catalog.rectangularPrice? product.tableId d)
    let price ← required model size found
    let breakdown ← e.chain product item price (.rect d.width d.height) size
    match family with
    | some family => breakdown.withSurcharge (family.surcharge d)
    | none => return breakdown

/-- Prices a round item by a text such as `8" diameter`. -/
def priceDiameter (e : Engine) (model : String) (item : ItemOptions) (size : String) :
    Except PricingError PriceBreakdown := do
  let diameter ← fromMeasure (Size.diameterOfText? size)
  let product ← e.product model
  let found ← fromCatalog (e.catalog.priceAtDiameter? product.tableId diameter)
  let price ← required model size found
  e.chain product item price (.diameter diameter) size

/-- The price of a length in inches at a rate per foot, the same with and without damper. -/
def linearPrice (length rate : Float) : TablePrice Float :=
  ⟨some (length / 12 * rate), some (length / 12 * rate)⟩

/-- Prices a linear item by its matched side and its length. -/
def priceFoot (e : Engine) (model : String) (item : ItemOptions) (side length : Float) :
    Except PricingError PriceBreakdown := do
  let product ← e.product model
  let label := Size.rectText length side
  let found ← fromCatalog (e.catalog.footRate? product.tableId (Binary64.trunc side))
  let rate ← required model label found
  e.chain product item (linearPrice length rate) (.rect side length) label

/-- How an error names the size of a product that has none. -/
def noDimensions : String := "no dimensions"

/-- Prices a product whose rows carry no sizes. A row with a rate per foot needs a length. -/
def priceDimensionless (e : Engine) (model : String) (item : ItemOptions)
    (length : Option Float) : Except PricingError PriceBreakdown := do
  let product ← e.product model
  let found ← fromCatalog (e.catalog.dimensionlessPriceId? model)
  let priceId ← required model noDimensions found
  match ← fromCatalog (e.catalog.footRateById? priceId) with
  | some rate =>
    match length with
    | some length =>
      e.chain product item (linearPrice length rate) (.length length) (Size.inchesText length)
    | none => .error (.measure (.dimension ("length required for " ++ model)))
  | none => do
    let row ← fromCatalog (e.catalog.priceRow? priceId)
    let price ← required model noDimensions (row.bind PriceRow.tablePrice?)
    e.chain product item price .none noDimensions

end Engine

end Ventilation
