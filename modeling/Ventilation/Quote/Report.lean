import Ventilation.Quote.Item
import Ventilation.Text.Json

/-!
A quote line as it is shown: as lines with a name before each figure, or as a JSON document with
amounts as strings.
-/

set_option autoImplicit false

namespace Ventilation

namespace QuoteItem

/-- The lines of a quote. Screens, filters and discounts are shown where there are any. -/
def lines (q : QuoteItem) : List String :=
  let shown (label : String) (text : Option String) : List String :=
    (text.map fun text => label ++ text).toList
  let amount (label : String) (d : Decimal) : List String :=
    if d.isZero then [] else [label ++ d.text]
  ["Product:     " ++ q.productCode, "Size:        " ++ q.size] ++
    shown "Priced at:   " q.roundedSize ++
    shown "Finish:      " q.finish ++
    ["Table price: " ++ q.tablePrice.text, "With finish: " ++ q.priceAfterFinish.text] ++
    amount "Filter:      " q.filterPrice ++
    amount "Screen:      " q.accessoryPrice ++
    ["Unit price:  " ++ q.unitPrice.text] ++
    (if q.discount.isZero then []
      else ["Discount:    " ++ q.discount.text ++ "%",
        "Discounted:  " ++ q.discountedUnitPrice.text]) ++
    ["Quantity:    " ++ toString q.quantity, "Total:       " ++ q.total.text]

/-- What is said about a line beside its figures. -/
def notices (q : QuoteItem) : List String :=
  q.warnings.map fun w => "Warning: " ++ w.message

end QuoteItem

def QuoteWarning.json : QuoteWarning → JsonValue
  | .swapped d =>
    .object [("DimensionsSwapped",
      .object [("width", .number d.width), ("height", .number d.height)])]

def QuoteItem.json (q : QuoteItem) : JsonValue :=
  let amount (d : Decimal) : JsonValue := .string d.text
  .object [
    ("product_code", .string q.productCode),
    ("size", .string q.size),
    ("rounded_size", .ofText? q.roundedSize),
    ("finish", .ofText? q.finish),
    ("quantity", .integer q.quantity),
    ("table_price", amount q.tablePrice),
    ("price_after_finish", amount q.priceAfterFinish),
    ("filter_price", amount q.filterPrice),
    ("accessory_price", amount q.accessoryPrice),
    ("unit_price", amount q.unitPrice),
    ("discount_percent", amount q.discount),
    ("discounted_unit_price", amount q.discountedUnitPrice),
    ("total", amount q.total),
    ("warnings", .array (q.warnings.map QuoteWarning.json))]

end Ventilation
