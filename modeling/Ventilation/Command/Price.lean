import Ventilation.Quote.Item

/-!
Prices for sizes as they are typed. What a size means depends on the shape of its model: a
rectangle, a diameter, a length with a matched side, a length, or nothing.
-/

set_option autoImplicit false

namespace Ventilation.Command

/-- Why a typed request has no price. -/
inductive RequestError where
  | pricing (error : PricingError)
  | measure (error : MeasureError)
  | quote (error : QuoteError)
  | sizeRequired (model : String)
  | heightRequired

/-- The reason shown in place of a price: a label of what has no price, the wording of all else. -/
def RequestError.reason : RequestError → String
  | pricing error => error.label
  | measure error => error.message
  | quote (.pricing error) => error.label
  | quote error => error.message
  | sizeRequired model => "--size is required for " ++ model
  | heightRequired => "--height is required with --width"

/-- The wording of an overflow, if that is the error. -/
def RequestError.overflow? : RequestError → Option String
  | pricing error => error.overflow?
  | quote error => error.overflow?
  | _ => none

def priced {α : Type} : Except PricingError α → Except RequestError α
  | .ok a => .ok a
  | .error e => .error (.pricing e)

def measured {α : Type} : Except MeasureError α → Except RequestError α
  | .ok a => .ok a
  | .error e => .error (.measure e)

/-- Prices a linear item: the rate is that of its smaller side, rounded to whole inches and up to a
tabulated size, and its larger side is the length. -/
def priceFootOfText (e : Engine) (model : String) (item : ItemOptions) (size : String) :
    Except RequestError PriceBreakdown := do
  let d ← measured (Size.ofText? size)
  let sides := d.canonicalize.1
  match ← priced (e.roundFoot? model (Binary64.round sides.height)) with
  | some side => priced (e.priceFoot model item side sides.width)
  | none => .error (.pricing (.sizeNotFound model size))

/-- Prices a product without dimensions, whose size is a length in inches if it has a rate. -/
def priceLengthOfText (e : Engine) (model : String) (item : ItemOptions) (size : Option String) :
    Except RequestError PriceBreakdown := do
  match size with
  | some size => do
    let length ← measured (Length.ofText? size .inches)
    priced (e.priceDimensionless model item (some length.toInches))
  | none => priced (e.priceDimensionless model item none)

/-- Prices an item by a typed size. -/
def priceOfText (e : Engine) (model : String) (item : ItemOptions) (size : Option String) :
    Except RequestError PriceBreakdown := do
  match ← priced (e.shape model), size with
  | .rectangular, some size => priced (e.priceRect model item size)
  | .diameter, some size => priced (e.priceDiameter model item size)
  | .pricePerFoot, some size => priceFootOfText e model item size
  | .dimensionless _, size => priceLengthOfText e model item size
  | _, none => .error (.sizeRequired model)

end Ventilation.Command
