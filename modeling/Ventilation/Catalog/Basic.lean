import Ventilation.Catalog.Price
import Ventilation.Product
import Ventilation.Text.Search

/-!
The catalog: products, the price list and the rates beyond its edges, and every question that
pricing asks of it. A question about a table that is missing has no answer, which is not the same
as an empty table. What a question returns depends on the rows alone and not on their order, as
long as their ids differ.
-/

set_option autoImplicit false

namespace Ventilation

inductive CatalogTable where
  | products
  | prices
  | rowMultipliers
  | columnMultipliers
  deriving DecidableEq, Repr

inductive CatalogError where
  /-- There is no catalog file. -/
  | noFile
  | missing (table : CatalogTable)
  /-- The result of an operation on ids does not fit 64 bits. -/
  | overflow (operation : String)
  deriving DecidableEq, Repr

/-- The wording of an overflow, if that is the error. -/
def CatalogError.overflow? : CatalogError → Option String
  | overflow operation => some ("attempt to " ++ operation ++ " with overflow")
  | noFile | missing _ => none

/-- The rates of `rowMultipliers` apply beyond the greatest height and are keyed by width, those of
`columnMultipliers` apply beyond the greatest width and are keyed by height. -/
structure Catalog (α : Type) where
  products : Option (List Product)
  prices : Option (List (PriceRow α))
  rowMultipliers : Option (List (EdgeRate α))
  columnMultipliers : Option (List (EdgeRate α))

/-- The element that no other one precedes; of several such the first. -/
def foremost? {β : Type} (precedes : β → β → Bool) : List β → Option β
  | [] => none
  | x :: xs => some (xs.foldl (fun best y => if precedes y best then y else best) x)

namespace Catalog

variable {α : Type} [Scalar α]

abbrev Answer (β : Type) := Except CatalogError β

def table {β : Type} (which : CatalogTable) : Option (List β) → Answer (List β)
  | some rows => .ok rows
  | none => .error (.missing which)

def productRows (c : Catalog α) : Answer (List Product) := table .products c.products

def priceRows (c : Catalog α) : Answer (List (PriceRow α)) := table .prices c.prices

/-- The rows of one price table. -/
def rowsOf (c : Catalog α) (tableId : Int) : Answer (List (PriceRow α)) :=
  c.priceRows.map fun rows => rows.filter fun row => row.tableId = tableId

/-- What a column keeps of a number: nothing of what is no number, and no sign of zero. -/
def column (x : Option α) : Option α :=
  x.bind fun x => if x == x then some (if x == Scalar.ofNat 0 then Scalar.ofNat 0 else x) else none

def columnsOf (row : PriceRow α) : PriceRow α :=
  { row with
    height := column row.height
    width := column row.width
    normalPrice := column row.normalPrice
    priceWithDamper := column row.priceWithDamper
    pricePerFoot := column row.pricePerFoot }

def ratesOf (rate : EdgeRate α) : Option (EdgeRate α) :=
  (column (some rate.key)).map fun key =>
    { rate with key, regular := column rate.regular, withDamper := column rate.withDamper }

/-- The catalog with numbers as its columns keep them. -/
def stored (c : Catalog α) : Catalog α where
  products := c.products
  prices := c.prices.map (List.map columnsOf)
  rowMultipliers := c.rowMultipliers.map (List.filterMap ratesOf)
  columnMultipliers := c.columnMultipliers.map (List.filterMap ratesOf)

/-! Products -/

def models (c : Catalog α) : Answer (List String) :=
  c.productRows.map fun rows => Text.sortedNames (rows.map Product.model)

def product? (c : Catalog α) (model : String) : Answer (Option Product) :=
  c.productRows.map fun rows => rows.find? fun p => p.model = model

def tableId? (c : Catalog α) (model : String) : Answer (Option Int) :=
  (c.product? model).map (Option.map Product.tableId)

/-! Tabulated prices -/

/-- Equality of a column with a requested number. -/
def isAt (x : Option α) (requested : α) : Bool := x.any (· == requested)

def isAtMost (x : Option α) (requested : α) : Bool := x.any fun y => decide (y ≤ requested)

def lowerId (a b : PriceRow α) : Bool := a.priceId < b.priceId

/-- The price of exactly this rectangle. -/
def priceAt? (c : Catalog α) (tableId : Int) (height width : α) : Answer (Option (TablePrice α)) :=
  (c.rowsOf tableId).map fun rows =>
    let found := rows.filter fun row => isAt row.height height && isAt row.width width
    (foremost? lowerId found).bind PriceRow.tablePrice?

/-- The price of exactly this diameter. -/
def priceAtDiameter? (c : Catalog α) (tableId : Int) (diameter : α) :
    Answer (Option (TablePrice α)) :=
  (c.rowsOf tableId).map fun rows =>
    let found := rows.filter fun row => isAt row.height diameter && row.width.isNone
    (foremost? lowerId found).bind PriceRow.tablePrice?

/-- Whether a column goes before another, an empty one before all. -/
def columnBefore (a b : Option α) : Bool :=
  match a, b with
  | none, some _ => true
  | some x, some y => decide (x < y)
  | _, none => false

/-- Rows by height, then by width, then by id. -/
def rowBefore (a b : PriceRow α) : Bool :=
  columnBefore a.height b.height || !columnBefore b.height a.height &&
    (columnBefore a.width b.width || !columnBefore b.width a.width && lowerId a b)

/-- The rate per foot of a tabulated size. -/
def footRate? (c : Catalog α) (tableId : Int) (size : α) : Answer (Option α) :=
  (c.rowsOf tableId).map fun rows =>
    let found := rows.filter fun row => isAt row.height size && row.pricePerFoot.isSome
    (foremost? rowBefore found).bind PriceRow.pricePerFoot

def priceRow? (c : Catalog α) (priceId : Int) : Answer (Option (PriceRow α)) :=
  c.priceRows.map fun rows => rows.find? fun row => row.priceId = priceId

def footRateById? (c : Catalog α) (priceId : Int) : Answer (Option α) :=
  (c.priceRow? priceId).map fun row => row.bind PriceRow.pricePerFoot

/-- The greatest of the numbers that a column holds. -/
def greatest? (xs : List (Option α)) : Option α :=
  foremost? (fun x y => decide (y < x)) (xs.filterMap id)

/-- The greatest height and the greatest width of a table. -/
def maxDimensions? (c : Catalog α) (tableId : Int) : Answer (Option (α × α)) :=
  (c.rowsOf tableId).map fun rows =>
    (greatest? (rows.map PriceRow.height)).bind fun height =>
      (greatest? (rows.map PriceRow.width)).map fun width => (height, width)

/-- The largest tabulated rectangle within the requested one: the highest, then the widest. -/
def closestPrice? (c : Catalog α) (tableId : Int) (height width : α) :
    Answer (Option (ClosestPrice α)) :=
  (c.rowsOf tableId).map fun rows =>
    let found := rows.filter fun row => isAtMost row.height height && isAtMost row.width width
    (foremost? (fun a b => rowBefore b a) found).bind fun row =>
      row.height.bind fun h => row.width.bind fun w => row.tablePrice?.map fun p => ⟨h, w, p⟩

/-! Rates beyond the edges of a table -/

/-- The rate of a table with the greatest key among those that `within` admits. -/
def edgeRate? (rates : List (EdgeRate α)) (tableId : Int) (within : α → Bool) :
    Option (EdgeRate α) :=
  foremost? (fun a b => decide (b.key < a.key))
    (rates.filter fun rate => rate.tableId = tableId && within rate.key)

/-- The larger of the positive rates among two. -/
def largerPositive? (a b : Option α) : Option α :=
  match a.filter (fun x => decide (Scalar.ofNat 0 < x)),
    b.filter (fun x => decide (Scalar.ofNat 0 < x)) with
  | some x, some y => some (Scalar.larger x y)
  | some x, none => some x
  | none, y => y

/-- The rate per square inch of a size beyond the table. Beyond both edges it is the larger of the
positive rates at the widest and at the highest entry; beyond one edge it is the rate of the
nearest entry at or below the other side. There is none within the table. -/
def exceededRate? (c : Catalog α) (tableId : Int) (width height : α) (damper : Bool) :
    Answer (Option α) := do
  match ← c.maxDimensions? tableId with
  | none => return none
  | some (maxHeight, maxWidth) =>
    let all := fun _ => true
    match decide (maxWidth < width), decide (maxHeight < height) with
    | true, true => do
      let rows ← table .rowMultipliers c.rowMultipliers
      let columns ← table .columnMultipliers c.columnMultipliers
      return largerPositive? ((edgeRate? rows tableId all).bind (·.pick damper))
        ((edgeRate? columns tableId all).bind (·.pick damper))
    | true, false => do
      let columns ← table .columnMultipliers c.columnMultipliers
      return (edgeRate? columns tableId fun key => decide (key ≤ height)).bind (·.pick damper)
    | false, true => do
      let rows ← table .rowMultipliers c.rowMultipliers
      return (edgeRate? rows tableId fun key => decide (key ≤ width)).bind (·.pick damper)
    | false, false => return none

/-! Tabulated sizes -/

/-- Increasing; equal numbers stay in their order. -/
def increasing (xs : List α) : List α := xs.mergeSort fun a b => decide (a ≤ b)

/-- The rectangles of a table as width and height, by height, then by width. -/
def rectangularSizes (c : Catalog α) (tableId : Int) : Answer (List (α × α)) :=
  (c.rowsOf tableId).map fun rows =>
    (rows.mergeSort fun a b => !rowBefore b a).filterMap fun row =>
      row.width.bind fun w => row.height.map fun h => (w, h)

def diameters (c : Catalog α) (tableId : Int) : Answer (List α) :=
  (c.rowsOf tableId).map fun rows =>
    increasing ((rows.filter fun row => row.width.isNone).filterMap PriceRow.height)

/-- The sizes that have a rate per foot. -/
def footSizes (c : Catalog α) (tableId : Int) : Answer (List α) :=
  (c.rowsOf tableId).map fun rows =>
    increasing ((rows.filter fun row => row.pricePerFoot.isSome).filterMap PriceRow.height)

/-! Shapes -/

/-- Whether a row of the model's table has a property. A blank model has no rows, whatever tables
there are. -/
def anyRow (c : Catalog α) (model : String) (property : PriceRow α → Bool) : Answer Bool :=
  if (Text.trimmed model).isEmpty then .ok false
  else do
    let products ← c.productRows
    let prices ← c.priceRows
    return products.any fun p =>
      p.model = model && prices.any fun row => row.tableId = p.tableId && property row

/-- Whether the model's table has a row without width. -/
def isOtherTable (c : Catalog α) (model : String) : Answer Bool :=
  c.anyRow model fun row => row.width.isNone

def hasPricePerFoot (c : Catalog α) (model : String) : Answer Bool :=
  c.anyRow model fun row => row.pricePerFoot.isSome

def hasNoDimensions (c : Catalog α) (model : String) : Answer Bool :=
  c.anyRow model fun row => row.height.isNone && row.width.isNone

def shape (c : Catalog α) (model : String) : Answer Shape := do
  if ← c.hasNoDimensions model then
    return .dimensionless (← c.hasPricePerFoot model)
  if ← c.hasPricePerFoot model then return .pricePerFoot
  if ← c.isOtherTable model then return .diameter
  return .rectangular

/-- The result of an operation on ids, if it fits 64 bits. -/
def checkedId (operation : String) (id : Int) : Answer Int :=
  if -twoTo 63 ≤ id && id < twoTo 63 then .ok id else .error (.overflow operation)

/-- The id that is as far from `start` as `id` is from `first`. -/
def shiftedId (start first id : Int) : Answer Int := do
  let distance ← checkedId "subtract" (id - first)
  checkedId "add" (start + distance)

/-- The price row of a product without dimensions: as far from the table's first row without
dimensions as the product is from the table's first product, both counted by id. -/
def dimensionlessPriceId? (c : Catalog α) (model : String) : Answer (Option Int) := do
  match ← c.product? model with
  | none => return none
  | some product => do
    let products ← c.productRows
    let rows ← c.rowsOf product.tableId
    let sharing := products.filter fun p => p.tableId = product.tableId
    let bare := rows.filter fun row => row.height.isNone && row.width.isNone
    match foremost? (fun a b => decide (a < b)) (sharing.map Product.productId),
      foremost? (fun a b => decide (a < b)) (bare.map PriceRow.priceId) with
    | some first, some start => (shiftedId start first product.productId).map some
    | _, _ => return none

end Catalog

end Ventilation
