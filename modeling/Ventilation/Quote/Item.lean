import Ventilation.Pricing.Engine
import Ventilation.Quote.Decimal
import Ventilation.Quote.ProductCode

/-!
Quote lines. A line prices one item as ordered: sizes in the caller's units, the options of its
product code, quantity and discount. Amounts of money are decimals.
-/

set_option autoImplicit false

namespace Ventilation

/-- The size of a quote line as entered. -/
inductive QuoteDimensions where
  | rectangular (width height : Length)
  | diameter (size : Length)
  | height (height : Length)
  | none

structure QuoteRequest where
  code : ProductCode
  finish : Option Finish
  quantity : Nat
  /-- A percentage. -/
  discount : Decimal
  specialColorMultiplier : Option Float
  dimensions : QuoteDimensions

/-- Why there is no quote line. -/
inductive QuoteError where
  | pricing (error : PricingError)
  | measure (error : MeasureError)
  /-- The product is priced by a size that the request lacks. -/
  | missingDimension (model what : String)
  | filterNotFound (name : String)
  /-- An amount is no decimal. -/
  | amount (value : Float)
  /-- A decimal result is too large. -/
  | overflow (operation : String)

def QuoteError.message : QuoteError → String
  | .pricing error => error.message
  | .measure error => error.message
  | .missingDimension model what => what ++ " required for " ++ model
  | .filterNotFound name => "Filter \"" ++ name ++ "\" not found in database"
  | .amount value => "amount out of range: " ++ Binary64.display value
  | .overflow operation => operation ++ " overflowed"

/-- The wording of an overflow of amounts or ids, if that is the error. -/
def QuoteError.overflow? : QuoteError → Option String
  | .overflow operation => some (QuoteError.overflow operation).message
  | .pricing error => error.overflow?
  | _ => none

/-- What the caller should see of a line that could be priced. -/
inductive QuoteWarning where
  /-- The height was the larger side, and the pair was turned. -/
  | swapped (d : Dimensions Float)

def QuoteWarning.message : QuoteWarning → String
  | .swapped d =>
    "Width and height appear to be swapped. Using " ++ Size.rectText d.width d.height ++
      " instead."

structure QuoteItem where
  productCode : String
  /-- The size as entered, in the caller's units. -/
  size : String
  /-- The tabulated size that is priced. -/
  roundedSize : Option String
  finish : Option String
  quantity : Nat
  /-- The price without finish. -/
  tablePrice : Decimal
  priceAfterFinish : Decimal
  filterPrice : Decimal
  accessoryPrice : Decimal
  unitPrice : Decimal
  discount : Decimal
  discountedUnitPrice : Decimal
  total : Decimal
  warnings : List QuoteWarning

/-- The figures of a line before money is reckoned with. -/
structure PricedLine where
  tablePrice : Int
  priceAfterFinish : Int
  filterPrice : Float
  accessoryPrice : Float
  size : String
  roundedSize : Option String
  warnings : List QuoteWarning

/-- The size of the item that a filter is for. -/
inductive FilterSize where
  | rect (d : Dimensions Float)
  | diameter (inches : Float)

namespace QuoteRequest

def item (r : QuoteRequest) : ItemOptions :=
  ⟨r.finish, r.code.withDamper, r.specialColorMultiplier⟩

/-- The item without its finish. -/
def neutralItem (r : QuoteRequest) : ItemOptions := { r.item with finish := none }

/-- The name of the filter, if one that is not blank was ordered. -/
def filterName? (r : QuoteRequest) : Option String :=
  (r.code.filter.map Text.trimmed).filter fun name => !name.isEmpty

def sides (r : QuoteRequest) (model : String) : Except QuoteError (Length × Length) :=
  match r.dimensions with
  | .rectangular width height => .ok (width, height)
  | _ => .error (.missingDimension model "Width and height")

/-- The size of a linear slot product; of a rectangle only the height counts. -/
def height? (r : QuoteRequest) : Option Length :=
  match r.dimensions with
  | .height height => some height
  | .rectangular _ height => some height
  | _ => none

end QuoteRequest

def fromPricing {α : Type} : Except PricingError α → Except QuoteError α
  | .ok a => .ok a
  | .error e => .error (.pricing e)

/-- An amount of money with at most two decimals. -/
def money (x : Float) : Except QuoteError Decimal :=
  match Decimal.ofFloat? x with
  | some d => .ok (d.roundTo 2)
  | none => .error (.amount x)

def reckoned (operation : String) (result : Option Decimal) : Except QuoteError Decimal :=
  match result with
  | some d => .ok d
  | none => .error (.overflow operation)

namespace Engine

/-- The price of the filter at the size of its host, without finish and damper. -/
def filterPrice (e : Engine) (r : QuoteRequest) (size : FilterSize) : Except QuoteError Float := do
  match r.filterName? with
  | none => return 0
  | some name =>
    match ← fromPricing (e.findFilter? name) with
    | none => .error (.filterNotFound name)
    | some model => do
      let breakdown ← match size with
        | .rect d => do
          let width := Binary64.trunc (Scalar.larger d.width d.height)
          let height := Binary64.trunc (Scalar.smaller d.width d.height)
          let rounded ← fromPricing (e.roundRect? model width height)
          fromPricing (e.priceRect model .standard (rounded.getD (Size.rectText width height)))
        | .diameter inches => do
          let rounded ← fromPricing (e.roundDiameter? model inches)
          fromPricing (e.priceDiameter model .standard
            (rounded.getD (Size.diameterText (Binary64.trunc inches))))
      return Binary64.ofInt breakdown.price

/-- The price of the insect screen, if one was ordered. -/
def accessoryPrice (e : Engine) (r : QuoteRequest) (d : Dimensions Float) : Float :=
  if r.code.accessory then e.options.accessory.price d else 0

/-- The sides of a rectangle in inches, the larger one as width. -/
def canonicalSides (width height : Length) : Dimensions Float × Bool :=
  (Dimensions.mk width.toInches height.toInches).canonicalize

def swapWarnings (d : Dimensions Float) (swapped : Bool) : List QuoteWarning :=
  if swapped then [.swapped d] else []

def sidesText (width height : Length) : String := width.text ++ " x " ++ height.text

/-- A rectangular item is priced at the tabulated size that covers it. -/
def quoteRectangular (e : Engine) (model : String) (r : QuoteRequest) :
    Except QuoteError PricedLine := do
  let (width, height) ← r.sides model
  let (d, swapped) := canonicalSides width height
  let rounded ← fromPricing (e.roundRect? model d.width d.height)
  let size := rounded.getD (Size.rectText d.width d.height)
  let neutral ← fromPricing (e.priceRect model r.neutralItem size)
  let finished ← fromPricing (e.priceRect model r.item size)
  let filter ← e.filterPrice r (.rect d)
  return ⟨neutral.price, finished.price, filter, e.accessoryPrice r d,
    if swapped then sidesText height width else sidesText width height, some size,
    swapWarnings d swapped⟩

/-- A linear item is priced by the rate of its smaller side, rounded up, and its larger side. -/
def quotePricePerFoot (e : Engine) (model : String) (r : QuoteRequest) :
    Except QuoteError PricedLine := do
  let (width, height) ← r.sides model
  let (d, swapped) := canonicalSides width height
  match ← fromPricing (e.roundFoot? model (Binary64.round d.height)) with
  | none => .error (.pricing (.sizeNotFound model (Size.inchesText d.height)))
  | some side => do
    let neutral ← fromPricing (e.priceFoot model r.neutralItem side d.width)
    let finished ← fromPricing (e.priceFoot model r.item side d.width)
    let filter ← e.filterPrice r (.rect d)
    return ⟨neutral.price, finished.price, filter, e.accessoryPrice r d, sidesText width height,
      some (Size.rectText d.width side), swapWarnings d swapped⟩

/-- A round item is priced at the tabulated diameter that covers it, and never has a screen. -/
def quoteDiameter (e : Engine) (model : String) (r : QuoteRequest) :
    Except QuoteError PricedLine := do
  match r.dimensions with
  | .diameter length => do
    let inches := length.toInches
    let rounded ← fromPricing (e.roundDiameter? model inches)
    let size := rounded.getD (Size.diameterText inches)
    let neutral ← fromPricing (e.priceDiameter model r.neutralItem size)
    let finished ← fromPricing (e.priceDiameter model r.item size)
    let filter ← e.filterPrice r (.diameter inches)
    return ⟨neutral.price, finished.price, filter, 0, length.text, some size, []⟩
  | _ => .error (.missingDimension model "Size")

/-- The height on the row of a product without dimensions, which may carry a diameter there. -/
def dimensionlessHeight? (e : Engine) (model : String) : Except PricingError (Option Float) := do
  match ← fromCatalog (e.catalog.dimensionlessPriceId? model) with
  | none => return none
  | some priceId =>
    let row ← fromCatalog (e.catalog.priceRow? priceId)
    return row.bind PriceRow.height

/-- The size of a slot product: its length, in millimetres if it was given so, or the height of its
row, after the number of slots. -/
def slotText (e : Engine) (model : String) (length : Option Length) : Except QuoteError String := do
  let slots := (ProductCode.slotNumber? model).getD "" ++ "Slot"
  match length with
  | some length =>
    let shown :=
      if length.unit = .millimeters then length.text else Size.inchesText length.toInches
    return slots ++ " x " ++ shown
  | none =>
    match ← fromPricing (e.dimensionlessHeight? model) with
    | some height => return slots ++ " x " ++ Size.inchesText height
    | none => return slots

/-- A product without dimensions is priced by its row, with a length if that has a rate. -/
def quoteDimensionless (e : Engine) (model : String) (r : QuoteRequest) (perFoot : Bool) :
    Except QuoteError PricedLine := do
  let height := if perFoot then r.height? else none
  if perFoot && height.isNone then .error (.missingDimension model "Height")
  let length := height.map Length.toInches
  let size ← e.slotText model height
  let neutral ← fromPricing (e.priceDimensionless model r.neutralItem length)
  let finished ← fromPricing (e.priceDimensionless model r.item length)
  return ⟨neutral.price, finished.price, 0, 0, size, none, []⟩

/-- The figures of a quote line by the shape of its model. -/
def priceLine (e : Engine) (r : QuoteRequest) : Except QuoteError PricedLine := do
  let model := Text.trimmed r.code.model
  match ← fromPricing (e.shape model) with
  | .rectangular => e.quoteRectangular model r
  | .pricePerFoot => e.quotePricePerFoot model r
  | .diameter => e.quoteDiameter model r
  | .dimensionless perFoot => e.quoteDimensionless model r perFoot

/-- Prices one quote line. The discount is taken off the unit price, and the quantity multiplies
what is left. -/
def quote (e : Engine) (r : QuoteRequest) : Except QuoteError QuoteItem := do
  let line ← e.priceLine r
  let filterPrice ← money line.filterPrice
  let withFilter ← reckoned "Addition" ((Decimal.ofInt line.priceAfterFinish).add? filterPrice)
  let accessoryPrice ← money line.accessoryPrice
  let unitPrice ← reckoned "Addition" (withFilter.add? accessoryPrice)
  let factor ← reckoned "Subtraction" ((Decimal.ofInt 1).sub? r.discount.hundredth)
  let discounted ← reckoned "Multiplication" (unitPrice.mul? factor)
  let total ← reckoned "Multiplication" (discounted.mul? (Decimal.ofInt r.quantity))
  return {
    productCode := r.code.text
    size := line.size
    roundedSize := line.roundedSize
    finish := r.finish.map Finish.text
    quantity := r.quantity
    tablePrice := Decimal.ofInt line.tablePrice
    priceAfterFinish := Decimal.ofInt line.priceAfterFinish
    filterPrice
    accessoryPrice
    unitPrice
    discount := r.discount
    discountedUnitPrice := discounted
    total
    warnings := line.warnings }

end Engine

end Ventilation
