import Ventilation.Proofs.Catalog.SlotId
import Ventilation.Proofs.Pricing.Dependence
import Ventilation.Proofs.Pricing.RoundedSize
import Ventilation.Proofs.Quote.Line

/-!
# Products without dimensions

A product without dimensions is priced, and its quote line sized, by one row: the one whose id is
as far from the table's first row without dimensions as the product is from the table's first
product. The row is looked up by that id in the whole price list, so it is a row of the product's
own table just when that table has a row with the id. A gap among the products of a table is enough
to lead into the rows of the next one.
-/

set_option autoImplicit false
set_option relaxedAutoImplicit false

namespace Ventilation

/-! ### The row of a product -/

namespace Catalog

variable {c : Catalog Float} {model : String} {product : Product} {row : PriceRow Float} {id : Int}

/-- A row of the price list, of whatever table, that stands by its id where the product stands. -/
structure IsSlotRow (c : Catalog Float) (product : Product) (row : PriceRow Float) : Prop where
  mem : row ∈ c.prices.getD []
  id_eq : ∃ first start, IsLeast (c.productIds product.tableId) first ∧
    IsLeast (c.bareIds product.tableId) start ∧
    row.priceId = start + (product.productId - first)

theorem priceRow?_eq_some (h : c.priceRow? id = .ok (some row)) :
    row ∈ c.prices.getD [] ∧ row.priceId = id := by
  obtain ⟨rows, hrows, h⟩ := map_eq_ok_iff.1 h
  have hmem := List.mem_of_find?_eq_some h
  have hid : row.priceId = id := by simpa using List.find?_some h
  rw [table_eq_ok_iff.1 hrows]
  exact ⟨hmem, hid⟩

theorem isSlotRow_of_priceRow? (hproduct : c.product? model = .ok (some product))
    (hid : c.dimensionlessPriceId? model = .ok (some id))
    (hrow : c.priceRow? id = .ok (some row)) : c.IsSlotRow product row := by
  obtain ⟨first, start, hfirst, hstart, hsum⟩ := exists_of_dimensionlessPriceId? hproduct hid
  obtain ⟨hmem, hrowId⟩ := priceRow?_eq_some hrow
  exact ⟨hmem, first, start, hfirst, hstart, hrowId.trans hsum⟩

/-- A product has one row at most. -/
theorem IsSlotRow.eq (hids : c.UniquePriceIds) {other : PriceRow Float}
    (h : c.IsSlotRow product row) (hother : c.IsSlotRow product other) : row = other := by
  obtain ⟨first, start, hfirst, hstart, hid⟩ := h.id_eq
  obtain ⟨first', start', hfirst', hstart', hid'⟩ := hother.id_eq
  have hsame : row.priceId = other.priceId := by
    rw [hid, hid', hfirst.unique hfirst', hstart.unique hstart']
  exact eq_of_alike (fun _ _ ↦ Eq.symm) hids h.mem hother.mem hsame

/-- The row is the table's own if and only if the table has a row with its id. -/
theorem IsSlotRow.tableId_eq_iff (hids : c.UniquePriceIds) (h : c.IsSlotRow product row) :
    row.tableId = product.tableId ↔ ∃ own ∈ c.prices.getD [],
      own.tableId = product.tableId ∧ own.priceId = row.priceId := by
  constructor
  · intro htable
    exact ⟨row, h.mem, htable, rfl⟩
  · rintro ⟨own, hown, htable, hid⟩
    have heq : own = row := eq_of_alike (fun _ _ ↦ Eq.symm) hids hown h.mem hid
    rw [← heq, htable]

end Catalog

/-! ### Prices and sizes by a row -/

namespace Engine

variable {e : Engine} {model : String} {product : Product} {row : PriceRow Float} {id : Int}
  {item : ItemOptions} {length : Option Float}

/-- The price of a product without dimensions at a row: by its rate per foot if it has one, else
by its two prices. -/
def priceSlot (e : Engine) (product : Product) (model : String) (item : ItemOptions)
    (length : Option Float) (row : PriceRow Float) : Except PricingError PriceBreakdown :=
  match row.pricePerFoot, length with
  | some rate, some length =>
    e.chain product item (linearPrice length rate) (.length length) (Size.inchesText length)
  | some _, none => .error (.measure (.dimension ("length required for " ++ model)))
  | none, _ => e.priceColumns product model item row.tablePrice? .none noDimensions

/-- The size that a quote line shows for a row. -/
def slotSize (model : String) (row : PriceRow Float) : String :=
  let slots := (ProductCode.slotNumber? model).getD "" ++ "Slot"
  match row.height with
  | some height => slots ++ " x " ++ Size.inchesText height
  | none => slots

/-- The length that a request gives for a product without dimensions. -/
def slotLength? (r : QuoteRequest) (perFoot : Bool) : Option Float :=
  if perFoot then r.height?.map Length.toInches else none

theorem priceDimensionless_eq_priceSlot (hproduct : e.product model = .ok product)
    (hid : e.catalog.dimensionlessPriceId? model = .ok (some id))
    (hrow : e.catalog.priceRow? id = .ok (some row)) :
    e.priceDimensionless model item length = e.priceSlot product model item length row := by
  have hrate : e.catalog.footRateById? id = .ok row.pricePerFoot := by
    unfold Catalog.footRateById?
    rw [hrow]
    rfl
  unfold priceDimensionless priceSlot
  rw [hproduct, ok_bind, hid, fromCatalog_ok, ok_bind]
  simp only [required, ok_bind, hrate, fromCatalog_ok]
  cases row.pricePerFoot with
  | some rate => cases length <;> rfl
  | none =>
    simp only [hrow, fromCatalog_ok, ok_bind]
    rfl

/-- Whatever is priced without dimensions is priced by the row at the id of its product. -/
theorem exists_slotRow_of_priceDimensionless (hproduct : e.product model = .ok product)
    {b : PriceBreakdown} (h : e.priceDimensionless model item length = .ok b) :
    ∃ id row, e.catalog.dimensionlessPriceId? model = .ok (some id) ∧
      e.catalog.priceRow? id = .ok (some row) ∧
      e.priceSlot product model item length row = .ok b := by
  obtain ⟨product', hproduct', h'⟩ := bind_eq_ok_iff.1 h
  obtain rfl := Except.ok.inj (hproduct.symm.trans hproduct')
  obtain ⟨found, hid, h'⟩ := bind_eq_ok_iff.1 h'
  rw [fromCatalog_eq_ok_iff] at hid
  cases found with
  | none => cases h'
  | some id =>
    obtain ⟨priceId, hpriceId, h'⟩ := bind_eq_ok_iff.1 h'
    obtain rfl := Except.ok.inj hpriceId
    obtain ⟨rate, hrate, h'⟩ := bind_eq_ok_iff.1 h'
    rw [fromCatalog_eq_ok_iff] at hrate
    obtain ⟨found, hfound, hfoundRate⟩ := map_eq_ok_iff.1 hrate
    cases found with
    | some row =>
      refine ⟨id, row, hid, hfound, ?_⟩
      rw [← priceDimensionless_eq_priceSlot hproduct hid hfound, h]
    | none =>
      obtain rfl : none = rate := hfoundRate
      rw [hfound] at h'
      cases h'

theorem dimensionlessHeight?_eq (hid : e.catalog.dimensionlessPriceId? model = .ok (some id))
    (hrow : e.catalog.priceRow? id = .ok (some row)) :
    e.dimensionlessHeight? model = .ok row.height := by
  unfold dimensionlessHeight?
  rw [hid, fromCatalog_ok, ok_bind]
  simp only [hrow, fromCatalog_ok, ok_bind]
  rfl

theorem slotText_none (hid : e.catalog.dimensionlessPriceId? model = .ok (some id))
    (hrow : e.catalog.priceRow? id = .ok (some row)) :
    e.slotText model none = .ok (slotSize model row) := by
  unfold slotText slotSize
  simp only [dimensionlessHeight?_eq hid hrow, fromPricing]
  cases row.height <;> rfl

/-- One row gives both prices of a line without dimensions, and its size if no length is asked
for. -/
theorem exists_slotRow_of_quoteDimensionless (hproduct : e.product model = .ok product)
    {r : QuoteRequest} {perFoot : Bool} {line : PricedLine}
    (h : e.quoteDimensionless model r perFoot = .ok line) :
    ∃ id row neutral finished, e.catalog.dimensionlessPriceId? model = .ok (some id) ∧
      e.catalog.priceRow? id = .ok (some row) ∧
      e.priceSlot product model r.neutralItem (slotLength? r perFoot) row = .ok neutral ∧
      e.priceSlot product model r.item (slotLength? r perFoot) row = .ok finished ∧
      line.tablePrice = neutral.price ∧ line.priceAfterFinish = finished.price ∧
      (slotLength? r perFoot = none → line.size = slotSize model row) := by
  have hlength : slotLength? r perFoot =
      (if perFoot then r.height? else none).map Length.toInches := by
    unfold slotLength?
    cases perFoot <;> rfl
  unfold quoteDimensionless at h
  rw [hlength]
  generalize (if perFoot then r.height? else none) = height at h ⊢
  by_cases hmissing : (perFoot && height.isNone) = true
  · rw [if_pos hmissing] at h
    cases h
  rw [if_neg hmissing] at h
  obtain ⟨size, hsize, h⟩ := bind_eq_ok_iff.1 h
  obtain ⟨neutral, hneutral, h⟩ := bind_eq_ok_iff.1 h
  obtain ⟨finished, hfinished, h⟩ := bind_eq_ok_iff.1 h
  obtain rfl := Except.ok.inj h
  rw [fromPricing_eq_ok_iff] at hneutral hfinished
  obtain ⟨id, row, hid, hrow, hpriced⟩ := exists_slotRow_of_priceDimensionless hproduct hneutral
  refine ⟨id, row, neutral, finished, hid, hrow, hpriced, ?_, rfl, rfl, fun hnone ↦ ?_⟩
  · rw [← priceDimensionless_eq_priceSlot hproduct hid hrow, hfinished]
  · rw [Option.map_eq_none_iff] at hnone
    rw [hnone, slotText_none hid hrow] at hsize
    exact (Except.ok.inj hsize).symm

theorem isSlotRow_of_product (hproduct : e.product model = .ok product)
    (hid : e.catalog.dimensionlessPriceId? model = .ok (some id))
    (hrow : e.catalog.priceRow? id = .ok (some row)) : e.catalog.IsSlotRow product row :=
  Catalog.isSlotRow_of_priceRow? (product?_of_product hproduct) hid hrow

/-- Every price without dimensions, and every such quote line with its size, is made from the row
that stands by its id where the product stands, and from no other. That row is one of the product's
own table if and only if the table has a row with the id. -/
theorem slotRow_of_dimensionless (e : Engine) (hids : e.catalog.UniquePriceIds) (model : String)
    (product : Product) (hproduct : e.product model = .ok product) :
    (∀ item length b, e.priceDimensionless model item length = .ok b →
      ∃ row, e.catalog.IsSlotRow product row ∧
        e.priceSlot product model item length row = .ok b) ∧
    (∀ (r : QuoteRequest) item perFoot, Text.trimmed r.code.model = model →
      e.shape model = .ok (.dimensionless perFoot) → e.quote r = .ok item →
      ∃ row neutral finished, e.catalog.IsSlotRow product row ∧
        e.priceSlot product model r.neutralItem (slotLength? r perFoot) row = .ok neutral ∧
        e.priceSlot product model r.item (slotLength? r perFoot) row = .ok finished ∧
        item.tablePrice = Decimal.ofInt neutral.price ∧
        item.priceAfterFinish = Decimal.ofInt finished.price ∧
        (slotLength? r perFoot = none → item.size = slotSize model row)) ∧
    ∀ row, e.catalog.IsSlotRow product row →
      (row.tableId = product.tableId ↔ ∃ own ∈ e.catalog.prices.getD [],
        own.tableId = product.tableId ∧ own.priceId = row.priceId) := by
  refine ⟨?_, ?_, fun row hrow ↦ hrow.tableId_eq_iff hids⟩
  · intro item length b h
    obtain ⟨id, row, hid, hrow, hpriced⟩ := exists_slotRow_of_priceDimensionless hproduct h
    exact ⟨row, isSlotRow_of_product hproduct hid hrow, hpriced⟩
  · intro r item perFoot hmodel hshape hquote
    subst hmodel
    obtain ⟨line, hline, hshows⟩ := exists_shows_of_quote hquote
    rw [priceLine_eq_lineOfShape hshape] at hline
    obtain ⟨id, row, neutral, finished, hid, hrow, hneutral, hfinished, htable, hprice, hsize⟩ :=
      exists_slotRow_of_quoteDimensionless hproduct hline
    refine ⟨row, neutral, finished, isSlotRow_of_product hproduct hid hrow, hneutral, hfinished,
      ?_, ?_, fun hnone ↦ hshows.size.trans (hsize hnone)⟩
    · rw [hshows.tablePrice, htable]
    · rw [hshows.priceAfterFinish, hprice]

/-- Two products of table 1, the second with a given id, and two rows for them, before the only row
of table 2. -/
def slots (second : Int) : Engine where
  catalog := {
    products := some [⟨1, 1, "2 SLOT", none, none, none, none, none⟩,
      ⟨second, 1, "4 SLOT", none, none, none, none, none⟩,
      ⟨4, 2, "RD", none, none, none, none, none⟩]
    prices := some [⟨1, 1, none, none, some 100, none, none⟩,
      ⟨2, 1, none, none, some 200, none, none⟩, ⟨3, 2, some 8, none, some 900, none, none⟩]
    rowMultipliers := some []
    columnMultipliers := some [] }
  options := .standard
  overrides := .empty

/-- A request for one "4 SLOT". -/
def slotRequest : QuoteRequest where
  code := ⟨"4 SLOT", false, false, none⟩
  finish := none
  quantity := 1
  discount := Decimal.ofInt 0
  specialColorMultiplier := none
  dimensions := .none

theorem slotRow_of_dimensionless_sample :
    ∃ product row b item neutral, (slots 2).product "4 SLOT" = .ok product ∧
      row.tableId = product.tableId ∧ row.normalPrice = some 200 ∧
      (slots 2).priceDimensionless "4 SLOT" .standard none = .ok b ∧
      (slots 2).priceSlot product "4 SLOT" .standard none row = .ok b ∧
      (slots 2).quote slotRequest = .ok item ∧
      (slots 2).priceSlot product "4 SLOT" .standard none row = .ok neutral ∧
      item.tablePrice = Decimal.ofInt neutral.price ∧ item.size = slotSize "4 SLOT" row := by
  have hb : ((slots 2).priceDimensionless "4 SLOT" .standard none).toOption.isSome = true := by
    decide +kernel
  have hitem : ((slots 2).quote slotRequest).toOption.isSome = true := by decide +kernel
  have hshape : (slots 2).shape "4 SLOT" = .ok (.dimensionless false) := by
    exact eq_ok_of_toOption (by decide +kernel)
  obtain ⟨b, hb⟩ := Option.isSome_iff_exists.1 hb
  obtain ⟨item, hitem⟩ := Option.isSome_iff_exists.1 hitem
  have hids : (slots 2).catalog.UniquePriceIds := by decide
  have hproduct : (slots 2).product "4 SLOT" =
      .ok ⟨2, 1, "4 SLOT", none, none, none, none, none⟩ := rfl
  have hid : (slots 2).catalog.dimensionlessPriceId? "4 SLOT" = .ok (some 2) := rfl
  have hown : (slots 2).catalog.IsSlotRow ⟨2, 1, "4 SLOT", none, none, none, none, none⟩
      ⟨2, 1, none, none, some 200, none, none⟩ := isSlotRow_of_product hproduct hid rfl
  obtain ⟨hprices, hquotes, htables⟩ := slotRow_of_dimensionless (slots 2) hids "4 SLOT" _ hproduct
  obtain ⟨row, hrow, hpriced⟩ := hprices .standard none b (eq_ok_of_toOption hb)
  obtain ⟨row', neutral, -, hrow', hneutral, -, htable, -, hsize⟩ :=
    hquotes slotRequest item false (by decide +kernel) hshape (eq_ok_of_toOption hitem)
  obtain rfl := hrow.eq hids hown
  obtain rfl := hrow'.eq hids hown
  exact ⟨_, _, b, item, neutral, hproduct, (htables _ hown).2 ⟨_, hown.mem, rfl, rfl⟩, rfl,
    eq_ok_of_toOption hb, hpriced, eq_ok_of_toOption hitem, hneutral, htable, hsize rfl⟩

/-- A missing product id leads from the second product of table 1 to the row of table 2: the item
is sold at its price, and the line shows its diameter. -/
theorem slotRow_of_other_table :
    ∃ product row b item, (slots 3).product "4 SLOT" = .ok product ∧
      (slots 3).catalog.UniquePriceIds ∧
      (slots 3).catalog.IsSlotRow product row ∧ row.tableId ≠ product.tableId ∧
      (slots 3).priceDimensionless "4 SLOT" .standard none = .ok b ∧ b.price = 900 ∧
      (slots 3).quote slotRequest = .ok item ∧ item.tablePrice = Decimal.ofInt 900 ∧
      item.size = "4Slot x 8\"" := by
  have hb : ((slots 3).priceDimensionless "4 SLOT" .standard none).toOption.map
      PriceBreakdown.price = some 900 := by decide +kernel
  have hitem : ((slots 3).quote slotRequest).toOption.map
      (fun item ↦ (item.tablePrice, item.size)) = some (Decimal.ofInt 900, "4Slot x 8\"") := by
    decide +kernel
  obtain ⟨b, hb, hprice⟩ := Option.map_eq_some_iff.1 hb
  obtain ⟨item, hitem, hshown⟩ := Option.map_eq_some_iff.1 hitem
  obtain ⟨htable, hsize⟩ := Prod.mk.inj hshown
  have hproduct : (slots 3).product "4 SLOT" =
      .ok ⟨3, 1, "4 SLOT", none, none, none, none, none⟩ := rfl
  have hid : (slots 3).catalog.dimensionlessPriceId? "4 SLOT" = .ok (some 3) := rfl
  exact ⟨_, ⟨3, 2, some 8, none, some 900, none, none⟩, b, item, hproduct, by decide,
    isSlotRow_of_product hproduct hid rfl, by decide, eq_ok_of_toOption hb, hprice,
    eq_ok_of_toOption hitem, htable, hsize⟩

end Engine

end Ventilation
