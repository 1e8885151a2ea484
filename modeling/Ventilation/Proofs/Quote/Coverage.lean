import Ventilation.Proofs.Pricing.RoundedSize
import Ventilation.Proofs.Quote.Line

/-!
# Whether the row that prices a quote covers the request

A rectangular quote is priced at a row that covers the request if and only if some row of the table
does. If none does, the request itself is written down as the size, and reading cuts its sides to
whole inches: a fraction beyond the largest row is lost before the size is held against the edges of
the table. A request in whole inches loses nothing.
-/

set_option autoImplicit false
set_option relaxedAutoImplicit false

namespace Ventilation

open Binary64

/-- Whether a rectangle lies within the size of a row. -/
def PriceRow.Covers (row : PriceRow Float) (d : Dimensions Float) : Prop :=
  ∃ w y, row.width = some w ∧ row.height = some y ∧ d.width ≤ w ∧ d.height ≤ y

namespace Engine

variable {e : Engine} {model size : String} {row : PriceRow Float}

/-! ### The row behind a price -/

/-- The row that a rectangle is priced at; none beyond the edges of the table, where a rate applies,
and none at a size that the table lacks. -/
def pricingRow? (e : Engine) (model size : String) :
    Except PricingError (Option (PriceRow Float)) := do
  let d ← fromMeasure (Size.ofText? size)
  let product ← e.product model
  match ← fromCatalog (e.catalog.exceededRate? product.tableId d.width d.height false) with
  | some _ => return none
  | none => do
    let rows ← fromCatalog (e.catalog.rowsOf product.tableId)
    return foremost? Catalog.lowerId (rows.filter fun row ↦
      Catalog.isAt row.height d.height && Catalog.isAt row.width d.width)

theorem exists_of_pricingRow? (h : e.pricingRow? model size = .ok (some row)) :
    ∃ d product rows, Size.ofText? size = .ok d ∧ e.product model = .ok product ∧
      e.catalog.exceededRate? product.tableId d.width d.height false = .ok none ∧
      e.catalog.rowsOf product.tableId = .ok rows ∧
      foremost? Catalog.lowerId (rows.filter fun row ↦
        Catalog.isAt row.height d.height && Catalog.isAt row.width d.width) = some row := by
  obtain ⟨d, hd, h⟩ := bind_eq_ok_iff.1 h
  obtain ⟨product, hproduct, h⟩ := bind_eq_ok_iff.1 h
  obtain ⟨rate, hrate, h⟩ := bind_eq_ok_iff.1 h
  rw [fromMeasure_eq_ok_iff] at hd
  rw [fromCatalog_eq_ok_iff] at hrate
  cases rate with
  | some rate => cases h
  | none =>
    obtain ⟨rows, hrows, h⟩ := bind_eq_ok_iff.1 h
    rw [fromCatalog_eq_ok_iff] at hrows
    exact ⟨d, product, rows, hd, hproduct, hrate, hrows, Except.ok.inj h⟩

/-- The row is the one whose columns the item is priced from. -/
theorem priceRect_of_pricingRow? (hfamily : e.overrides.familyOf? model = none)
    (h : e.pricingRow? model size = .ok (some row)) (item : ItemOptions) :
    ∃ d product, Size.ofText? size = .ok d ∧ e.product model = .ok product ∧
      e.priceRect model item size =
        e.priceColumns product model item row.tablePrice? (.rect d.width d.height) size := by
  obtain ⟨d, product, rows, hd, hproduct, hrate, hrows, hrow⟩ := exists_of_pricingRow? h
  refine ⟨d, product, hd, hproduct, priceRect_eq hd hproduct hfamily ?_⟩
  rw [rectangularPrice?_of_exceededRate? hrate]
  unfold Catalog.priceAt?
  rw [hrows]
  simp only [Except.map, hrow, Option.bind_some]

/-- The row stands at the size that the text is read as. -/
theorem hasRow_of_pricingRow? (h : e.pricingRow? model size = .ok (some row)) :
    ∃ d w y, Size.ofText? size = .ok d ∧ e.HasRow model row ∧ row.width = some w ∧
      row.height = some y ∧ (w == d.width) = true ∧ (y == d.height) = true := by
  obtain ⟨d, product, rows, hd, hproduct, -, hrows, hrow⟩ := exists_of_pricingRow? h
  obtain ⟨hmem, hat⟩ := List.mem_filter.1 (mem_of_foremost? hrow)
  rw [Bool.and_eq_true] at hat
  obtain ⟨y, hy, hyd⟩ := Catalog.isAt_iff.1 hat.1
  obtain ⟨w, hw, hwd⟩ := Catalog.isAt_iff.1 hat.2
  exact ⟨d, w, y, hd, ⟨product, rows, hproduct, hrows, hmem⟩, hw, hy, hwd, hyd⟩

/-! ### The size of a quote line -/

theorem exists_quoteRectangular {r : QuoteRequest} {line : PricedLine}
    (h : e.priceLine r = .ok line)
    (hshape : e.shape (Text.trimmed r.code.model) = .ok .rectangular) :
    e.quoteRectangular (Text.trimmed r.code.model) r = .ok line :=
  (priceLine_eq_lineOfShape hshape).symm.trans h

/-- A rectangular line is priced at the rounded size, or else at the text of the request. -/
theorem size_of_quoteRectangular {r : QuoteRequest} {line : PricedLine} {width height : Length}
    (h : e.quoteRectangular model r = .ok line)
    (hdimensions : r.dimensions = .rectangular width height) :
    ∃ rounded size finished, e.roundRect? model (canonicalSides width height).1.width
        (canonicalSides width height).1.height = .ok rounded ∧
      size = rounded.getD (Size.rectText (canonicalSides width height).1.width
        (canonicalSides width height).1.height) ∧
      e.priceRect model r.item size = .ok finished ∧
      line.roundedSize = some size ∧ line.priceAfterFinish = finished.price := by
  obtain ⟨sides, hsides, h⟩ := bind_eq_ok_iff.1 h
  have hsides' : r.sides model = .ok (width, height) := by
    unfold QuoteRequest.sides
    rw [hdimensions]
  obtain rfl := Except.ok.inj (hsides.symm.trans hsides')
  obtain ⟨rounded, hrounded, h⟩ := bind_eq_ok_iff.1 h
  obtain ⟨neutral, -, h⟩ := bind_eq_ok_iff.1 h
  obtain ⟨finished, hfinished, h⟩ := bind_eq_ok_iff.1 h
  obtain ⟨filter, -, h⟩ := bind_eq_ok_iff.1 h
  obtain rfl := Except.ok.inj h
  rw [fromPricing_eq_ok_iff] at hrounded hfinished
  exact ⟨rounded, _, finished, hrounded, rfl, hfinished, rfl, rfl⟩

/-! ### Coverage -/

theorem le_of_le_of_beq_of_beq {x y z w : Float} (h : x ≤ y) (hzy : (z == y) = true)
    (hwz : (w == z) = true) : x ≤ w :=
  le_of_le_of_beq (le_of_le_of_beq h hzy) hwz

/-- A rounded size is that of a row that covers the request. -/
theorem covers_of_roundRect? {d : Dimensions Float} (hc : e.catalog.WholeInches)
    (hround : e.roundRect? model d.width d.height = .ok (some size))
    (hrow : e.pricingRow? model size = .ok (some row)) : row.Covers d := by
  obtain ⟨p, w, y, hp, -, hw, hy, hwp, hyp⟩ := hasRow_of_pricingRow? hrow
  obtain ⟨-, -, -, w', y', p', -, -, -, -, -, hwidth, hheight, hp', hpw, hpy⟩ :=
    exists_of_roundRect? hc hround
  obtain rfl := Except.ok.inj (hp.symm.trans hp')
  exact ⟨w, y, hw, hy, le_of_le_of_beq_of_beq hwidth hpw hwp,
    le_of_le_of_beq_of_beq hheight hpy hyp⟩

/-- Without a rounded size no row of the table covers the request. -/
theorem not_covers_of_roundRect? {d : Dimensions Float}
    (hround : e.roundRect? model d.width d.height = .ok none) :
    ¬ ∃ row, e.HasRow model row ∧ row.Covers d := by
  rintro ⟨row, ⟨product, rows, hproduct, hrows, hrow⟩, w, y, hw, hy, hwidth, hheight⟩
  obtain ⟨sizes, hsizes, hmem⟩ := Catalog.mem_rectangularSizes hrows
  obtain ⟨found, hfound⟩ :=
    exists_roundUpSize? ((hmem (w, y)).2 ⟨row, hrow, hw, hy⟩) hwidth hheight
  unfold roundRect? at hround
  rw [hproduct, ok_bind, hsizes, fromCatalog_ok, ok_bind, hfound] at hround
  cases hround

/-- A rectangular line that is sold at the price of a row covers the request just when the table
has a row that does; the row always covers a request in whole inches. -/
theorem covers_iff_of_quote (e : Engine) (hc : e.catalog.WholeInches) (r : QuoteRequest)
    (item : QuoteItem) (width height : Length) (size : String) (row : PriceRow Float)
    (hquote : e.quote r = .ok item) (hdimensions : r.dimensions = .rectangular width height)
    (hshape : e.shape (Text.trimmed r.code.model) = .ok .rectangular)
    (hfamily : e.overrides.familyOf? (Text.trimmed r.code.model) = none)
    (hsize : item.roundedSize = some size)
    (hrow : e.pricingRow? (Text.trimmed r.code.model) size = .ok (some row)) :
    (∃ product d breakdown, e.product (Text.trimmed r.code.model) = .ok product ∧
      Size.ofText? size = .ok d ∧
      e.priceColumns product (Text.trimmed r.code.model) r.item row.tablePrice?
        (.rect d.width d.height) size = .ok breakdown ∧
      item.priceAfterFinish = Decimal.ofInt breakdown.price) ∧
    (row.Covers (canonicalSides width height).1 ↔
      ∃ row', e.HasRow (Text.trimmed r.code.model) row' ∧
        row'.Covers (canonicalSides width height).1) ∧
    (IsWholeInches (canonicalSides width height).1.width →
      IsWholeInches (canonicalSides width height).1.height →
      row.Covers (canonicalSides width height).1) := by
  obtain ⟨line, hline, hitem, hprice⟩ := exists_priceLine_of_quote hquote
  obtain ⟨rounded, size', finished, hrounded, hsize', hfinished, hlineSize, hlinePrice⟩ :=
    size_of_quoteRectangular (exists_quoteRectangular hline hshape) hdimensions
  obtain rfl := Option.some.inj ((hsize.symm.trans hitem).trans hlineSize)
  obtain ⟨priced, product, hpriced, hproduct, hcolumns⟩ :=
    priceRect_of_pricingRow? hfamily hrow r.item
  obtain ⟨p, w, y, hp, hhas, hw, hy, hwp, hyp⟩ := hasRow_of_pricingRow? hrow
  refine ⟨⟨product, priced, finished, hproduct, hpriced, hcolumns.symm.trans hfinished, ?_⟩, ?_⟩
  · rw [hprice, hlinePrice]
  generalize (canonicalSides width height).1 = d at *
  cases rounded with
  | some text =>
    obtain rfl : size = text := hsize'
    have hcovers := covers_of_roundRect? hc hrounded hrow
    exact ⟨⟨fun h ↦ ⟨row, hhas, h⟩, fun _ ↦ hcovers⟩, fun _ _ ↦ hcovers⟩
  | none =>
    obtain rfl : size = Size.rectText d.width d.height := hsize'
    have hnone := not_covers_of_roundRect? hrounded
    refine ⟨⟨fun h ↦ ⟨row, hhas, h⟩, fun h ↦ absurd h hnone⟩, fun hwidth hheight ↦ ?_⟩
    obtain ⟨p', hp', hpw, hpy⟩ := Size.ofText?_rectText hwidth hheight
    obtain rfl := Except.ok.inj (hp.symm.trans hp')
    have hwidth' := (beq_iff.1 hpw).2.1
    have hheight' := (beq_iff.1 hpy).2.1
    exact ⟨w, y, hw, hy,
      le_of_le_of_beq_of_beq (le_iff.2 ⟨hwidth', hwidth', Int.le_refl _⟩) hpw hwp,
      le_of_le_of_beq_of_beq (le_iff.2 ⟨hheight', hheight', Int.le_refl _⟩) hpy hyp⟩

/-- A request to the sample engine, in inches. -/
def sampleRequest (width height : Float) : QuoteRequest where
  code := ⟨"R", false, false, none⟩
  finish := none
  quantity := 1
  discount := Decimal.ofInt 0
  specialColorMultiplier := none
  dimensions := .rectangular ⟨width, .inches⟩ ⟨height, .inches⟩

private theorem exists_quote_sample (width height : Float) (size : String)
    (hquote : (sample.quote (sampleRequest width height)).toOption.map QuoteItem.roundedSize =
      some (some size))
    (hrow : (sample.pricingRow? "R" size).toOption.map (Option.map PriceRow.width) =
      some (some (some 40))) :
    ∃ item row, sample.quote (sampleRequest width height) = .ok item ∧
      item.roundedSize = some size ∧ sample.pricingRow? "R" size = .ok (some row) ∧
      row.width = some 40 := by
  obtain ⟨item, hitem, hsize⟩ := Option.map_eq_some_iff.1 hquote
  obtain ⟨found, hfound, hwidth⟩ := Option.map_eq_some_iff.1 hrow
  obtain ⟨row, rfl, hrowWidth⟩ := Option.map_eq_some_iff.1 hwidth
  exact ⟨item, row, eq_ok_of_toOption hitem, hsize, eq_ok_of_toOption hfound, hrowWidth⟩

theorem covers_sample : ∃ row, sample.pricingRow? "R" "40\" x 40\"" = .ok (some row) ∧
    row.Covers (canonicalSides ⟨39.5, .inches⟩ ⟨9, .inches⟩).1 := by
  obtain ⟨item, row, hitem, hsize, hrow, hwidth⟩ :=
    exists_quote_sample 39.5 9 "40\" x 40\"" (by decide +kernel) (by decide +kernel)
  have hsome : ∃ row', sample.HasRow "R" row' ∧
      row'.Covers (canonicalSides ⟨39.5, .inches⟩ ⟨9, .inches⟩).1 :=
    ⟨⟨1, 1, some 40, some 40, some 300, some 350, none⟩, ⟨_, _, rfl, rfl, List.mem_cons_self⟩,
      40, 40, rfl, rfl, by decide +kernel, by decide +kernel⟩
  have hiff := covers_iff_of_quote sample (by decide +kernel) (sampleRequest 39.5 9) item
    ⟨39.5, .inches⟩ ⟨9, .inches⟩ _ row hitem rfl (eq_ok_of_toOption (by decide +kernel)) rfl hsize
    hrow
  exact ⟨row, hrow, hiff.2.1.2 hsome⟩

/-- A request just beyond the only row is sold at the price of that row. -/
theorem quote_below_request : sample.catalog.Tabulated ∧
    sample.shape "R" = .ok .rectangular ∧ sample.overrides.familyOf? "R" = none ∧
    ∃ item row, sample.quote (sampleRequest 40.5 40) = .ok item ∧
      item.roundedSize = some "40.5\" x 40\"" ∧
      sample.pricingRow? "R" "40.5\" x 40\"" = .ok (some row) ∧
      ¬ row.Covers (canonicalSides ⟨40.5, .inches⟩ ⟨40, .inches⟩).1 := by
  obtain ⟨item, row, hitem, hsize, hrow, hwidth⟩ :=
    exists_quote_sample 40.5 40 "40.5\" x 40\"" (by decide +kernel) (by decide +kernel)
  refine ⟨by decide +kernel, eq_ok_of_toOption (by decide +kernel), rfl, item, row, hitem, hsize,
    hrow, ?_⟩
  rintro ⟨w, y, hw, -, hwide, -⟩
  obtain rfl := Option.some.inj (hwidth.symm.trans hw)
  exact absurd hwide (by decide +kernel)

end Engine

end Ventilation
