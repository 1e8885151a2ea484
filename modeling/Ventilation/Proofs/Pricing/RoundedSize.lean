import Ventilation.Pricing.Engine
import Ventilation.Proofs.Catalog.Lookup
import Ventilation.Proofs.Pricing.Refusal

/-!
# Rounded sizes

A size that rounding up offers is a size of the table, and is priced by the row that stands there.
Four parts have to agree for this: the list of sizes, the rounding, the text of a size with its
reader, and the exact lookup behind the test for sizes beyond the edges.
-/

set_option autoImplicit false
set_option relaxedAutoImplicit false

namespace Ventilation

open Binary64

/-! ### Prices of a row -/

/-- The two prices of a row. -/
def PriceRow.columns (row : PriceRow Float) : TablePrice Float :=
  ⟨row.normalPrice, row.priceWithDamper⟩

namespace Engine

variable {e : Engine} {model : String} {product : Product} {item : ItemOptions}

/-- The engine with other rates beyond the edges of its tables. -/
def withRates (e : Engine) (rows columns : Option (List (EdgeRate Float))) : Engine :=
  { e with catalog := { e.catalog with rowMultipliers := rows, columnMultipliers := columns } }

/-- Whether the row stands in the table of the model. -/
def HasRow (e : Engine) (model : String) (row : PriceRow Float) : Prop :=
  ∃ product rows, e.product model = .ok product ∧
    e.catalog.rowsOf product.tableId = .ok rows ∧ row ∈ rows

/-- Whether an item is priced from just these columns: there is no price if and only if the column
that the item is sold from is empty, a price shows both columns, and no rate beyond an edge has a
part in it. -/
structure PricedFrom (e : Engine) (item : ItemOptions) (columns : TablePrice Float)
    (price : Engine → Except PricingError PriceBreakdown) : Prop where
  notFound_iff : (∃ model size, price e = .error (.priceNotFound model size)) ↔
    columns.base? item.withDamper = none
  columns_eq : ∀ b, price e = .ok b → b.tb = columns.tb.getD 0 ∧ b.wd = columns.wd.getD 0
  rateFree : ∀ rows columns, price (e.withRates rows columns) = price e

theorem run_ne_priceNotFound {input : ChainInput} {tb wd : Option Float} {size : PricedSize}
    {price? : String → Option Float} {model label : String} :
    input.run tb wd size price? ≠ .error (.priceNotFound model label) := by
  intro h
  cases (ChainInput.run_eq_error_iff.1 h).1

theorem columns_of_run {input : ChainInput} {tb wd : Option Float} {size : PricedSize}
    {price? : String → Option Float} {b : PriceBreakdown}
    (h : input.run tb wd size price? = .ok b) :
    b.tb = tb.getD 0 ∧ b.wd = wd.getD 0 := by
  obtain ⟨price, -, rfl⟩ := map_eq_ok_iff.1 h
  exact ⟨rfl, rfl⟩

/-- The chain misses a price just where the column is empty. -/
theorem chain_eq_priceNotFound_iff {price : TablePrice Float} {size : PricedSize} {label : String} :
    (∃ model size', e.chain product item price size label = .error (.priceNotFound model size')) ↔
      price.base? item.withDamper = none := by
  unfold chain
  cases price.base? item.withDamper with
  | none => simp
  | some base =>
    simp only [Option.isNone_some, Bool.false_eq_true, if_false, reduceCtorEq, iff_false]
    rintro ⟨model', size', h⟩
    split at h
    · cases h
    · exact run_ne_priceNotFound h

theorem columns_of_chain {price : TablePrice Float} {size : PricedSize} {label : String}
    {b : PriceBreakdown} (h : e.chain product item price size label = .ok b) :
    b.tb = price.tb.getD 0 ∧ b.wd = price.wd.getD 0 := by
  unfold chain at h
  split at h
  · cases h
  · simp only at h
    split at h
    · cases h
    · exact columns_of_run h

/-- The price of an item at the columns of a row, which may both be empty. -/
def priceColumns (e : Engine) (product : Product) (model : String) (item : ItemOptions)
    (price : Option (TablePrice Float)) (size : PricedSize) (label : String) :
    Except PricingError PriceBreakdown := do
  let price ← required model label price
  e.chain product item price size label

theorem pricedFrom_of_priceColumns {price : Engine → Except PricingError PriceBreakdown}
    {columns : TablePrice Float} {size : PricedSize} {label : String}
    (h : ∀ rates rates', price (e.withRates rates rates') =
      e.priceColumns product model item (TablePrice.ofColumns? columns.tb columns.wd) size label) :
    e.PricedFrom item columns price := by
  have he : price e =
      e.priceColumns product model item (TablePrice.ofColumns? columns.tb columns.wd) size label :=
    h e.catalog.rowMultipliers e.catalog.columnMultipliers
  obtain ⟨tb, wd⟩ := columns
  by_cases hsome : (tb.isSome || wd.isSome) = true
  · have hcolumns : TablePrice.ofColumns? tb wd = some ⟨tb, wd⟩ := if_pos hsome
    have hchain : price e = e.chain product item ⟨tb, wd⟩ size label := by
      rw [he, hcolumns]
      rfl
    refine ⟨?_, ?_, fun rates rates' ↦ (h rates rates').trans he.symm⟩
    · rw [hchain]
      exact chain_eq_priceNotFound_iff
    · intro b hb
      exact columns_of_chain (hchain ▸ hb)
  · have hcolumns : TablePrice.ofColumns? tb wd = none := if_neg hsome
    have hmissing : price e = .error (.priceNotFound model label) := by
      rw [he, hcolumns]
      rfl
    rw [Bool.not_eq_true, Bool.or_eq_false_iff, Option.isSome_eq_false_iff,
      Option.isSome_eq_false_iff, Option.isNone_iff_eq_none, Option.isNone_iff_eq_none] at hsome
    obtain ⟨rfl, rfl⟩ := hsome
    refine ⟨?_, ?_, fun rates rates' ↦ (h rates rates').trans he.symm⟩
    · refine iff_of_true ⟨model, label, hmissing⟩ ?_
      cases item.withDamper <;> rfl
    · intro b hb
      rw [hmissing] at hb
      cases hb

/-! ### The three kinds of sizes -/

theorem priceRect_eq {size : String} {d : Dimensions Float} (hd : Size.ofText? size = .ok d)
    (hproduct : e.product model = .ok product) (hfamily : e.overrides.familyOf? model = none)
    {price : Option (TablePrice Float)}
    (hprice : e.catalog.rectangularPrice? product.tableId d = .ok price) :
    e.priceRect model item size =
      e.priceColumns product model item price (.rect d.width d.height) size := by
  unfold priceRect
  rw [hd, hproduct, hfamily]
  simp only [fromMeasure_ok, ok_bind, pure_bind, bind_pure, hprice, fromCatalog_ok]
  rfl

/-- Within a table a rectangle has its tabulated price. -/
theorem rectangularPrice?_of_exceededRate? {c : Catalog Float} {tableId : Int}
    {d : Dimensions Float} (h : c.exceededRate? tableId d.width d.height false = .ok none) :
    c.rectangularPrice? tableId d = c.priceAt? tableId d.height d.width := by
  unfold Catalog.rectangularPrice?
  rw [h]
  rfl

theorem priceDiameter_eq {size : String} {diameter : Float}
    (hd : Size.diameterOfText? size = .ok diameter) (hproduct : e.product model = .ok product)
    {price : Option (TablePrice Float)}
    (hprice : e.catalog.priceAtDiameter? product.tableId diameter = .ok price) :
    e.priceDiameter model item size =
      e.priceColumns product model item price (.diameter diameter) size := by
  unfold priceDiameter
  rw [hd, hproduct]
  simp only [fromMeasure_ok, ok_bind, hprice, fromCatalog_ok]
  rfl

theorem priceFoot_eq {side length rate : Float} (hproduct : e.product model = .ok product)
    (hrate : e.catalog.footRate? product.tableId (trunc side) = .ok (some rate)) :
    e.priceFoot model item side length =
      e.priceColumns product model item (some (linearPrice length rate)) (.rect side length)
        (Size.rectText length side) := by
  unfold priceFoot
  rw [hproduct]
  simp only [ok_bind, hrate, fromCatalog_ok]
  rfl

end Engine

/-! ### Rounded sizes are priced at their rows -/

theorem Catalog.Tabulated.withRates {e : Engine} (hc : e.catalog.Tabulated)
    (rates rates' : Option (List (EdgeRate Float))) :
    (e.withRates rates rates').catalog.Tabulated :=
  ⟨hc.whole, hc.sizes, hc.footSizes⟩

namespace Engine

variable {e : Engine} {model size : String}

/-- A text that rounding up offers reads as the size of a row that covers the request. -/
theorem exists_of_roundRect? {width height : Float} (hc : e.catalog.WholeInches)
    (h : e.roundRect? model width height = .ok (some size)) :
    ∃ product rows row w y d, e.product model = .ok product ∧
      e.catalog.rowsOf product.tableId = .ok rows ∧ row ∈ rows ∧
      row.width = some w ∧ row.height = some y ∧ width ≤ w ∧ height ≤ y ∧
      Size.ofText? size = .ok d ∧ (d.width == w) = true ∧ (d.height == y) = true := by
  obtain ⟨product, hproduct, h⟩ := bind_eq_ok_iff.1 h
  obtain ⟨sizes, hsizes, h⟩ := bind_eq_ok_iff.1 h
  rw [fromCatalog_eq_ok_iff] at hsizes
  obtain ⟨rows, hrows, -⟩ := map_eq_ok_iff.1 hsizes
  obtain ⟨sizes', hsizes', hmem⟩ := Catalog.mem_rectangularSizes hrows
  obtain rfl : sizes = sizes' := Except.ok.inj (hsizes.symm.trans hsizes')
  obtain ⟨⟨w, y⟩, hround, rfl⟩ := Option.map_eq_some_iff.1 (Except.ok.inj h)
  obtain ⟨hsize, hwidth, hheight⟩ := roundUpSize?_eq_some hround
  obtain ⟨row, hrow, hw, hy⟩ := (hmem _).1 hsize
  obtain ⟨d, hd, hdw, hdy⟩ := Size.ofText?_rectText
    (hc.isWholeInches hrows hrow (.inr hw)) (hc.isWholeInches hrows hrow (.inl hy))
  exact ⟨product, rows, row, w, y, d, hproduct, hrows, hrow, hw, hy, hwidth, hheight, hd, hdw, hdy⟩

theorem pricedFrom_of_roundRect? {width height : Float} (hc : e.catalog.Tabulated)
    (hfamily : e.overrides.familyOf? model = none)
    (h : e.roundRect? model width height = .ok (some size)) :
    ∃ row w y d, e.HasRow model row ∧ row.width = some w ∧ row.height = some y ∧
      Size.ofText? size = .ok d ∧ (d.width == w) = true ∧ (d.height == y) = true ∧
      width ≤ d.width ∧ height ≤ d.height ∧
      ∀ item, e.PricedFrom item row.columns fun e ↦ e.priceRect model item size := by
  obtain ⟨product, rows, row, w, y, d, hproduct, hrows, hrow, hw, hy, hwidth, hheight, hd, hdw,
    hdy⟩ := exists_of_roundRect? hc.whole h
  refine ⟨row, w, y, d, ⟨product, rows, hproduct, hrows, hrow⟩, hw, hy, hd, hdw, hdy,
    le_of_le_of_beq hwidth hdw, le_of_le_of_beq hheight hdy, fun item ↦ ?_⟩
  apply pricedFrom_of_priceColumns
  intro rates rates'
  have hc' := hc.withRates rates rates'
  have hlookup := Catalog.priceAt?_of_mem hc' hrows hrow
    (Catalog.isAt_iff.2 ⟨y, hy, beq_comm hdy⟩) (Catalog.isAt_iff.2 ⟨w, hw, beq_comm hdw⟩)
  have hwithin := Catalog.exceededRate?_of_covered hc'.whole hrows hrow hw hy
    (beq_iff.1 hdw).2.2.le (beq_iff.1 hdy).2.2.le false
  exact priceRect_eq (e := e.withRates rates rates') hd hproduct hfamily
    ((rectangularPrice?_of_exceededRate? hwithin).trans hlookup)

theorem pricedFrom_of_roundDiameter? {diameter : Float} (hc : e.catalog.Tabulated)
    (h : e.roundDiameter? model diameter = .ok (some size)) :
    ∃ row x d, e.HasRow model row ∧ row.width = none ∧ row.height = some x ∧
      Size.diameterOfText? size = .ok d ∧ (d == x) = true ∧ trunc diameter ≤ d ∧
      ∀ item, e.PricedFrom item row.columns fun e ↦ e.priceDiameter model item size := by
  obtain ⟨product, hproduct, h⟩ := bind_eq_ok_iff.1 h
  obtain ⟨sizes, hsizes, h⟩ := bind_eq_ok_iff.1 h
  rw [fromCatalog_eq_ok_iff] at hsizes
  obtain ⟨rows, hrows, -⟩ := map_eq_ok_iff.1 hsizes
  obtain ⟨sizes', hsizes', hmem⟩ := Catalog.mem_diameters hrows
  obtain rfl : sizes = sizes' := Except.ok.inj (hsizes.symm.trans hsizes')
  obtain ⟨x, hround, rfl⟩ := Option.map_eq_some_iff.1 (Except.ok.inj h)
  obtain ⟨hsize, hcovers⟩ := roundUpValue?_eq_some hround
  obtain ⟨row, hrow, hwidth, hheight⟩ := (hmem _).1 hsize
  obtain ⟨d, hd, hdx⟩ := Size.diameterOfText?_diameterText
    (hc.whole.isWholeInches hrows hrow (.inl hheight))
  refine ⟨row, x, d, ⟨product, rows, hproduct, hrows, hrow⟩, hwidth, hheight, hd, hdx,
    le_of_le_of_beq hcovers hdx, fun item ↦ ?_⟩
  apply pricedFrom_of_priceColumns
  intro rates rates'
  exact priceDiameter_eq hd hproduct (Catalog.priceAtDiameter?_of_mem (hc.withRates rates rates')
    hrows hrow (Catalog.isAt_iff.2 ⟨x, hheight, beq_comm hdx⟩) hwidth)

theorem pricedFrom_of_roundFoot? {width side : Float} (hc : e.catalog.Tabulated)
    (h : e.roundFoot? model width = .ok (some side)) :
    ∃ row rate, e.HasRow model row ∧ row.height = some side ∧ row.pricePerFoot = some rate ∧
      trunc width ≤ side ∧ ∀ item length, e.PricedFrom item (linearPrice length rate)
        fun e ↦ e.priceFoot model item side length := by
  obtain ⟨product, hproduct, h⟩ := bind_eq_ok_iff.1 h
  obtain ⟨sizes, hsizes, h⟩ := bind_eq_ok_iff.1 h
  rw [fromCatalog_eq_ok_iff] at hsizes
  obtain ⟨rows, hrows, -⟩ := map_eq_ok_iff.1 hsizes
  obtain ⟨sizes', hsizes', hmem⟩ := Catalog.mem_footSizes hrows
  obtain rfl : sizes = sizes' := Except.ok.inj (hsizes.symm.trans hsizes')
  obtain ⟨hsize, hcovers⟩ := roundUpValue?_eq_some (Except.ok.inj h)
  obtain ⟨row, hrow, hfoot, hheight⟩ := (hmem _).1 hsize
  obtain ⟨rate, hrate⟩ := Option.isSome_iff_exists.1 hfoot
  obtain ⟨n, -, hn⟩ := hc.whole.isWholeInches hrows hrow (.inl hheight)
  have htrunc : trunc side = side := toWhole_of_value? .towardZero hn
  have hnumber : IsNumber side := (nearest_value hn).1
  refine ⟨row, rate, ⟨product, rows, hproduct, hrows, hrow⟩, hheight, hrate, hcovers,
    fun item length ↦ ?_⟩
  apply pricedFrom_of_priceColumns
  intro rates rates'
  have hlookup := Catalog.footRate?_of_mem (hc.withRates rates rates') hrows hrow
    (Catalog.isAt_iff.2 ⟨side, hheight, beq_iff.2 ⟨hnumber, hnumber, rfl⟩⟩) hfoot
  rw [← htrunc, hrate] at hlookup
  exact priceFoot_eq hproduct hlookup

/-- Every size that rounding up offers, rectangular, round or linear, is the size of a row that
covers the request, and an item of that size is priced from the columns of just that row. -/
theorem pricedFrom_of_rounded (e : Engine) (hc : e.catalog.Tabulated) (model : String)
    (hfamily : e.overrides.familyOf? model = none) :
    (∀ width height size, e.roundRect? model width height = .ok (some size) →
      ∃ row w y d, e.HasRow model row ∧ row.width = some w ∧ row.height = some y ∧
        Size.ofText? size = .ok d ∧ (d.width == w) = true ∧ (d.height == y) = true ∧
        width ≤ d.width ∧ height ≤ d.height ∧
        ∀ item, e.PricedFrom item row.columns fun e ↦ e.priceRect model item size) ∧
    (∀ diameter size, e.roundDiameter? model diameter = .ok (some size) →
      ∃ row x d, e.HasRow model row ∧ row.width = none ∧ row.height = some x ∧
        Size.diameterOfText? size = .ok d ∧ (d == x) = true ∧ trunc diameter ≤ d ∧
        ∀ item, e.PricedFrom item row.columns fun e ↦ e.priceDiameter model item size) ∧
    (∀ width side, e.roundFoot? model width = .ok (some side) →
      ∃ row rate, e.HasRow model row ∧ row.height = some side ∧ row.pricePerFoot = some rate ∧
        trunc width ≤ side ∧ ∀ item length, e.PricedFrom item (linearPrice length rate)
          fun e ↦ e.priceFoot model item side length) :=
  ⟨fun _ _ _ ↦ pricedFrom_of_roundRect? hc hfamily, fun _ _ ↦ pricedFrom_of_roundDiameter? hc,
    fun _ _ ↦ pricedFrom_of_roundFoot? hc⟩

/-- An engine with a rectangular model, a round one and a linear one. -/
def sample : Engine where
  catalog := {
    products := some [⟨1, 1, "R", none, none, none, none, none⟩,
      ⟨2, 2, "D", none, none, none, none, none⟩, ⟨3, 3, "L", none, none, none, none, none⟩]
    prices := some [⟨1, 1, some 40, some 40, some 300, some 350, none⟩,
      ⟨2, 2, some 12, none, some 80, some 95, none⟩, ⟨3, 3, some 4, none, none, none, some 25⟩]
    rowMultipliers := some []
    columnMultipliers := some [] }
  options := .standard
  overrides := .empty

theorem pricedFrom_of_rounded_sample :
    (∃ row, sample.HasRow "R" row ∧ ∀ item, sample.PricedFrom item row.columns
      fun e ↦ e.priceRect "R" item "40\" x 40\"") ∧
    (∃ row, sample.HasRow "D" row ∧ ∀ item, sample.PricedFrom item row.columns
      fun e ↦ e.priceDiameter "D" item "12\" diameter") ∧
    ∃ row rate, sample.HasRow "L" row ∧ row.pricePerFoot = some rate ∧
      ∀ item length, sample.PricedFrom item (linearPrice length rate)
        fun e ↦ e.priceFoot "L" item 4 length := by
  have hc : sample.catalog.Tabulated := by decide +kernel
  refine ⟨?_, ?_, ?_⟩
  · obtain ⟨row, w, y, d, hrow, -, -, -, -, -, -, -, hprice⟩ :=
      (pricedFrom_of_rounded sample hc "R" rfl).1 39.5 9.5 "40\" x 40\""
        (eq_ok_of_toOption (by decide +kernel))
    exact ⟨row, hrow, hprice⟩
  · obtain ⟨row, x, d, hrow, -, -, -, -, -, hprice⟩ :=
      (pricedFrom_of_rounded sample hc "D" rfl).2.1 11.5 "12\" diameter"
        (eq_ok_of_toOption (by decide +kernel))
    exact ⟨row, hrow, hprice⟩
  · obtain ⟨row, rate, hrow, -, hrate, -, hprice⟩ :=
      (pricedFrom_of_rounded sample hc "L" rfl).2.2 3.5 4
        (eq_ok_of_toOption (by decide +kernel))
    exact ⟨row, rate, hrow, hrate, hprice⟩

end Engine

end Ventilation
