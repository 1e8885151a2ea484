import Ventilation.Catalog.Basic
import Ventilation.Database.Table
import Ventilation.Text.Character

/-!
The catalog in a database file. Columns are found by their names; a table that cannot be read is a
table that is missing.
-/

set_option autoImplicit false

namespace Ventilation.Database

/-- The columns of a table by name, and the one, if any, that holds the numbers of the rows. -/
structure Columns where
  names : List String
  numbered : Option String

def isName (c : Char) : Bool := c.isAlphanum || c = '_'

/-- The words of the definition of a column. -/
def wordsOf (text : List Char) : List String :=
  (text.splitBy fun a b => isName a == isName b).filterMap fun cs =>
    if cs.all isName then some (String.ofList cs) else none

/-- Reads the columns off the definition of a table. -/
def Columns.ofDefinition (definition : String) : Columns :=
  let body := (definition.toList.dropWhile (· ≠ '(')).drop 1
  let columns := (body.splitOn ',').map wordsOf
  let numbered := columns.find? fun words =>
    (words.drop 1).map String.toUpper == ["INTEGER", "PRIMARY", "KEY"]
  ⟨columns.filterMap List.head?, numbered.bind List.head?⟩

/-- A column of a row; what a row leaves out at its end is null. -/
def Columns.get? (c : Columns) (row : Row) (name : String) : Option Field :=
  if c.numbered = some name then some (.integer row.number)
  else
    let place := c.names.idxOf name
    if place < c.names.length then some (row.fields.getD place .null) else none

/-- How the columns of a row are read. -/
abbrev ColumnReader := String → Option Field

def integer? (row : ColumnReader) (name : String) : Option Int :=
  match row name with
  | some (.integer n) => some n
  | _ => none

/-- A column of numbers, which may be null. -/
def number? (row : ColumnReader) (name : String) : Option (Option Float) :=
  match row name with
  | some (.integer n) => some (some (Binary64.ofInt n))
  | some (.real x) => some (some x)
  | some .null => some none
  | _ => none

/-- A column of texts, which may be null. -/
def text? (row : ColumnReader) (name : String) : Option (Option String) :=
  match row name with
  | some (.text s) => some (some s)
  | some .null => some none
  | _ => none

def product? (row : ColumnReader) : Option Product := do
  let productId ← integer? row "product_id"
  let tableId ← integer? row "table_id"
  let model ← (← text? row "model")
  let tb ← text? row "tb_modifier"
  let wd ← text? row "wd_modifier"
  let anodized ← text? row "anodized_multiplier"
  let powderCoated ← text? row "powder_coated_multiplier"
  let noFinish ← text? row "no_finish_multiplier"
  return ⟨productId, tableId, model, tb, wd, anodized, powderCoated, noFinish⟩

def priceRow? (row : ColumnReader) : Option (PriceRow Float) := do
  let priceId ← integer? row "price_id"
  let tableId ← integer? row "table_id"
  let height ← number? row "height"
  let width ← number? row "width"
  let normalPrice ← number? row "normal_price"
  let priceWithDamper ← number? row "price_with_damper"
  let pricePerFoot ← number? row "price_per_foot"
  return ⟨priceId, tableId, height, width, normalPrice, priceWithDamper, pricePerFoot⟩

/-- A rate beyond an edge, from the columns of these names. -/
def edgeRate? (key regular withDamper : String) (row : ColumnReader) : Option (EdgeRate Float) := do
  let tableId ← integer? row "table_id"
  let key ← (← number? row key)
  let regular ← number? row regular
  let withDamper ← number? row withDamper
  return ⟨tableId, key, regular, withDamper⟩

/-- The rows of a table of this name. -/
def tableRows? {β : Type} (file : ByteArray) (name : String) (read : ColumnReader → Option β) :
    Option (List β) := do
  let layout ← layout? file
  let entry ← (← entries? file layout).find? fun entry => entry.name = name
  let rows ← rowsBelow? file layout maxLevels entry.page
  let columns := Columns.ofDefinition entry.definition
  rows.mapM fun row => read (columns.get? row)

/-- The catalog of a database file. -/
def catalog (file : ByteArray) : Catalog Float :=
  Catalog.stored {
    products := tableRows? file "products" product?
    prices := tableRows? file "prices" priceRow?
    rowMultipliers := tableRows? file "row_multipliers"
      (edgeRate? "width" "height_exceeded_multiplier" "height_exceeded_multiplier_wd")
    columnMultipliers := tableRows? file "column_multipliers"
      (edgeRate? "height" "width_exceeded_multiplier" "width_exceeded_multiplier_wd") }

end Ventilation.Database
