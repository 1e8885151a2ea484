import Ventilation.Number.Scalar

/-!
Rows of the price list. A row may lack its size, either of its two prices, or its rate per foot.
-/

set_option autoImplicit false

namespace Ventilation

/-- The prices of one tabulated size without and with a damper. -/
structure TablePrice (α : Type) where
  tb : Option α
  wd : Option α
  deriving DecidableEq, Repr

namespace TablePrice

variable {α : Type}

/-- A row with neither price is no price at all. -/
def ofColumns? (tb wd : Option α) : Option (TablePrice α) :=
  if tb.isSome || wd.isSome then some ⟨tb, wd⟩ else none

def scaled [Scalar α] (p : TablePrice α) (factor : α) : TablePrice α :=
  ⟨p.tb.map (· * factor), p.wd.map (· * factor)⟩

/-- The price the item is sold from. -/
def base? (p : TablePrice α) (withDamper : Bool) : Option α := if withDamper then p.wd else p.tb

end TablePrice

/-- A row of the price list. Diameters and the sizes of linear items stand in `height`. -/
structure PriceRow (α : Type) where
  priceId : Int
  tableId : Int
  height : Option α
  width : Option α
  normalPrice : Option α
  priceWithDamper : Option α
  pricePerFoot : Option α

def PriceRow.tablePrice? {α : Type} (row : PriceRow α) : Option (TablePrice α) :=
  TablePrice.ofColumns? row.normalPrice row.priceWithDamper

/-- The price per square inch beyond an edge of a table, from the tabulated size `key` on. -/
structure EdgeRate (α : Type) where
  tableId : Int
  key : α
  regular : Option α
  withDamper : Option α

def EdgeRate.pick {α : Type} (rate : EdgeRate α) (damper : Bool) : Option α :=
  if damper then rate.withDamper else rate.regular

/-- The largest tabulated size at or below a requested one. -/
structure ClosestPrice (α : Type) where
  height : α
  width : α
  price : TablePrice α

/-- How a price table is indexed. -/
inductive Shape where
  | rectangular
  | diameter
  /-- A rate per foot for one side of the item. -/
  | pricePerFoot
  /-- Rows without sizes, one for each product of the table in turn. -/
  | dimensionless (perFoot : Bool)
  deriving DecidableEq, Repr

def Shape.isPerFoot : Shape → Bool
  | pricePerFoot | dimensionless true => true
  | _ => false

end Ventilation
