import Ventilation.Proofs.Catalog.RowOrder
import Ventilation.Quote.Item

/-!
# Answers do not depend on the order of rows

Everything an engine tells about a model, from its finishes to a whole quote line, is made of what
its catalog answers. Over an unambiguous catalog these answers do not change when the tables are
listed in another order, and so nothing that the engine tells does.
-/

set_option autoImplicit false
set_option relaxedAutoImplicit false

namespace Ventilation

/-! ### Prices from answers -/

section

variable {c c' : Catalog Float}

theorem Catalog.SameAnswers.shape (h : c.SameAnswers c') (model : String) :
    c.shape model = c'.shape model := by
  unfold Catalog.shape hasNoDimensions hasPricePerFoot isOtherTable
  simp only [h.anyRow]

theorem Catalog.SameAnswers.rectangularPrice (h : c.SameAnswers c') (tableId : Int)
    (d : Dimensions Float) : c.rectangularPrice? tableId d = c'.rectangularPrice? tableId d := by
  unfold rectangularPrice?
  simp only [h.exceededRate, h.priceAt]

theorem Catalog.SameAnswers.referencePrice (h : c.SameAnswers c') (size : PricedSize) :
    c.referencePrice? size = c'.referencePrice? size := by
  funext model
  unfold referencePrice?
  simp only [h.product, h.priceAt, h.priceAtDiameter]

theorem Catalog.SameAnswers.priceOversized (h : c.SameAnswers c') (f : HandGearFamily Float)
    (product : Product) (d : Dimensions Float) (withDamper : Bool) :
    f.priceOversized? c product d withDamper = f.priceOversized? c' product d withDamper := by
  unfold HandGearFamily.priceOversized? HandGearFamily.panelPrice?
  simp only [h.priceAt, h.closestPrice]

end

namespace Engine

/-- Two engines give the same result to every question, errors included. -/
structure SameResults (e e' : Engine) : Prop where
  models : e.catalog.models = e'.catalog.models
  isOtherTable : ∀ model, e.catalog.isOtherTable model = e'.catalog.isOtherTable model
  hasPricePerFoot : ∀ model, e.catalog.hasPricePerFoot model = e'.catalog.hasPricePerFoot model
  hasNoDimensions : ∀ model, e.catalog.hasNoDimensions model = e'.catalog.hasNoDimensions model
  availableFinishes : ∀ model, e.availableFinishes model = e'.availableFinishes model
  hasDamper : ∀ model, e.hasDamper model = e'.hasDamper model
  shape : ∀ model, e.shape model = e'.shape model
  findFilter : ∀ name, e.findFilter? name = e'.findFilter? name
  roundRect : ∀ model width height,
    e.roundRect? model width height = e'.roundRect? model width height
  roundDiameter : ∀ model diameter,
    e.roundDiameter? model diameter = e'.roundDiameter? model diameter
  roundFoot : ∀ model width, e.roundFoot? model width = e'.roundFoot? model width
  priceRect : ∀ model item size, e.priceRect model item size = e'.priceRect model item size
  priceDiameter : ∀ model item size,
    e.priceDiameter model item size = e'.priceDiameter model item size
  priceFoot : ∀ model item side length,
    e.priceFoot model item side length = e'.priceFoot model item side length
  priceDimensionless : ∀ model item length,
    e.priceDimensionless model item length = e'.priceDimensionless model item length
  quote : ∀ r, e.quote r = e'.quote r

variable {e e' : Engine}

/-- Engines that differ in their catalogs only, and not in what these answer. -/
structure Alike (e e' : Engine) : Prop where
  catalog : e.catalog.SameAnswers e'.catalog
  options : e.options = e'.options
  overrides : e.overrides = e'.overrides

namespace Alike

theorem product (h : Alike e e') (model : String) : e.product model = e'.product model := by
  unfold Engine.product
  rw [h.catalog.product]

theorem chain (h : Alike e e') (product : Product) (item : ItemOptions) (price : TablePrice Float)
    (size : PricedSize) (label : String) :
    e.chain product item price size label = e'.chain product item price size label := by
  unfold Engine.chain
  rw [h.options, h.catalog.referencePrice]

theorem availableFinishes (h : Alike e e') (model : String) :
    e.availableFinishes model = e'.availableFinishes model := by
  unfold Engine.availableFinishes
  rw [h.product]

theorem hasDamper (h : Alike e e') (model : String) : e.hasDamper model = e'.hasDamper model := by
  unfold Engine.hasDamper
  rw [h.product]

theorem shape (h : Alike e e') (model : String) : e.shape model = e'.shape model := by
  unfold Engine.shape
  rw [h.product, h.catalog.shape]

theorem findFilter (h : Alike e e') (name : String) : e.findFilter? name = e'.findFilter? name := by
  unfold findFilter?
  rw [h.catalog.models]

/-- Rounding up goes through a listing only to choose from it. -/
private theorem fromCatalog_bind_eq {α β γ : Type} {x y : Except CatalogError α} {f : α → Option β}
    (h : x.map f = y.map f) (g : Option β → γ) :
    (fromCatalog x >>= fun a ↦ (pure (g (f a)) : Except PricingError γ)) =
      fromCatalog y >>= fun a ↦ pure (g (f a)) := by
  cases x with
  | error error =>
    cases y with
    | error error' =>
      cases h
      rfl
    | ok b => cases h
  | ok a =>
    cases y with
    | error error => cases h
    | ok b =>
      have hfound : f a = f b := Except.ok.inj h
      exact congrArg (fun found ↦ Except.ok (g found)) hfound

theorem roundRect (h : Alike e e') (model : String) (width height : Float) :
    e.roundRect? model width height = e'.roundRect? model width height := by
  unfold roundRect?
  rw [h.product]
  exact bind_congr fun product ↦
    fromCatalog_bind_eq (h.catalog.roundedSize product.tableId width height)
      (Option.map fun size ↦ Size.rectText size.1 size.2)

theorem roundDiameter (h : Alike e e') (model : String) (diameter : Float) :
    e.roundDiameter? model diameter = e'.roundDiameter? model diameter := by
  unfold roundDiameter?
  rw [h.product]
  exact bind_congr fun product ↦
    fromCatalog_bind_eq (h.catalog.roundedDiameter product.tableId _) (Option.map Size.diameterText)

theorem roundFoot (h : Alike e e') (model : String) (width : Float) :
    e.roundFoot? model width = e'.roundFoot? model width := by
  unfold roundFoot?
  rw [h.product]
  exact bind_congr fun product ↦
    fromCatalog_bind_eq (h.catalog.roundedFoot product.tableId _) id

theorem priceRect (h : Alike e e') (model : String) (item : ItemOptions) (size : String) :
    e.priceRect model item size = e'.priceRect model item size := by
  unfold Engine.priceRect
  simp only [h.product, h.overrides, h.catalog.priceOversized, h.catalog.rectangularPrice, h.chain]

theorem priceDiameter (h : Alike e e') (model : String) (item : ItemOptions) (size : String) :
    e.priceDiameter model item size = e'.priceDiameter model item size := by
  unfold Engine.priceDiameter
  simp only [h.product, h.catalog.priceAtDiameter, h.chain]

theorem priceFoot (h : Alike e e') (model : String) (item : ItemOptions) (side length : Float) :
    e.priceFoot model item side length = e'.priceFoot model item side length := by
  unfold Engine.priceFoot
  simp only [h.product, h.catalog.footRate, h.chain]

theorem priceDimensionless (h : Alike e e') (model : String) (item : ItemOptions)
    (length : Option Float) :
    e.priceDimensionless model item length = e'.priceDimensionless model item length := by
  unfold Engine.priceDimensionless Catalog.footRateById?
  simp only [h.product, h.catalog.dimensionlessPriceId, h.catalog.priceRow, h.chain]

/-! ### Quote lines -/

theorem filterPrice (h : Alike e e') (r : QuoteRequest) (size : FilterSize) :
    e.filterPrice r size = e'.filterPrice r size := by
  unfold Engine.filterPrice
  simp only [h.findFilter, h.roundRect, h.priceRect, h.roundDiameter, h.priceDiameter]

theorem accessoryPrice (h : Alike e e') (r : QuoteRequest) (d : Dimensions Float) :
    e.accessoryPrice r d = e'.accessoryPrice r d := by
  unfold Engine.accessoryPrice
  rw [h.options]

theorem slotText (h : Alike e e') (model : String) (length : Option Length) :
    e.slotText model length = e'.slotText model length := by
  unfold Engine.slotText dimensionlessHeight?
  simp only [h.catalog.dimensionlessPriceId, h.catalog.priceRow]

theorem priceLine (h : Alike e e') (r : QuoteRequest) : e.priceLine r = e'.priceLine r := by
  unfold Engine.priceLine quoteRectangular quotePricePerFoot quoteDiameter quoteDimensionless
  simp only [h.shape, h.roundRect, h.priceRect, h.filterPrice, h.accessoryPrice, h.roundFoot,
    h.priceFoot, h.roundDiameter, h.priceDiameter, h.slotText, h.priceDimensionless]

theorem quote (h : Alike e e') (r : QuoteRequest) : e.quote r = e'.quote r := by
  unfold Engine.quote
  rw [h.priceLine]

end Alike

/-- No result of an engine depends on the order in which the tables of its catalog are listed. -/
theorem sameResults_of_reordered (options : EngineOptions) (overrides : OverrideRegistry)
    (c c' : Catalog Float) (hc : c.Unambiguous) (hrows : c.Reordered c') :
    SameResults ⟨c, options, overrides⟩ ⟨c', options, overrides⟩ := by
  have h : Alike ⟨c, options, overrides⟩ ⟨c', options, overrides⟩ :=
    ⟨Catalog.sameAnswers_of_reordered hc hrows, rfl, rfl⟩
  exact {
    models := h.catalog.models
    isOtherTable := fun model ↦ h.catalog.anyRow model _
    hasPricePerFoot := fun model ↦ h.catalog.anyRow model _
    hasNoDimensions := fun model ↦ h.catalog.anyRow model _
    availableFinishes := h.availableFinishes
    hasDamper := h.hasDamper
    shape := h.shape
    findFilter := h.findFilter
    roundRect := h.roundRect
    roundDiameter := h.roundDiameter
    roundFoot := h.roundFoot
    priceRect := h.priceRect
    priceDiameter := h.priceDiameter
    priceFoot := h.priceFoot
    priceDimensionless := h.priceDimensionless
    quote := h.quote }

/-- Two rectangles that go equally far beyond 9 by 8 inches, a diameter and a rate per foot. -/
def listing : Catalog Float where
  products := some [⟨1, 1, "R", none, none, none, none, none⟩,
    ⟨2, 2, "RD", none, none, none, none, none⟩, ⟨3, 3, "L", none, none, none, none, none⟩]
  prices := some [⟨1, 1, some 8, some 12, some 90, some 95, none⟩,
    ⟨2, 1, some 10, some 10, some 100, none, none⟩, ⟨3, 2, some 8, none, some 50, none, none⟩,
    ⟨4, 3, some 4, none, none, none, some 25⟩]
  rowMultipliers := some [⟨1, 10, some 2, none⟩, ⟨1, 12, some 3, none⟩]
  columnMultipliers := some [⟨1, 8, some 2, some 4⟩, ⟨1, 10, some 1, none⟩]

/-- The same rows, last ones first. -/
def listingReversed : Catalog Float where
  products := listing.products.map List.reverse
  prices := listing.prices.map List.reverse
  rowMultipliers := listing.rowMultipliers.map List.reverse
  columnMultipliers := listing.columnMultipliers.map List.reverse

theorem sameResults_of_reordered_listing :
    roundRect? ⟨listing, .standard, .empty⟩ "R" 9 8 = .ok (some "10\" x 10\"") ∧
    roundRect? ⟨listingReversed, .standard, .empty⟩ "R" 9 8 = .ok (some "10\" x 10\"") ∧
    ∀ r, quote ⟨listing, .standard, .empty⟩ r = quote ⟨listingReversed, .standard, .empty⟩ r := by
  have hc : listing.Unambiguous :=
    ⟨by decide, by decide, by decide +kernel, by decide +kernel, by decide +kernel,
      by decide +kernel, by decide +kernel, by decide +kernel, by decide +kernel⟩
  have hrows : listing.Reordered listingReversed :=
    ⟨⟨_, _, rfl, rfl, (List.reverse_perm _).symm⟩, ⟨_, _, rfl, rfl, (List.reverse_perm _).symm⟩,
      ⟨_, _, rfl, rfl, (List.reverse_perm _).symm⟩, ⟨_, _, rfl, rfl, (List.reverse_perm _).symm⟩⟩
  have hsame := sameResults_of_reordered .standard .empty listing listingReversed hc hrows
  have hround : roundRect? ⟨listing, .standard, .empty⟩ "R" 9 8 = .ok (some "10\" x 10\"") := by
    have hsizes : listing.rectangularSizes 1 = .ok [(12, 8), (10, 10)] := by
      unfold Catalog.rectangularSizes
      rw [Catalog.rowsOf_eq rfl, Except.map, List.mergeSort_of_pairwise (by decide +kernel)]
      exact eq_ok_of_toOption (by decide +kernel)
    have hchosen : (roundUpSize? [((12 : Float), (8 : Float)), (10, 10)] 9 8).map
        (fun size ↦ Size.rectText size.1 size.2) = some "10\" x 10\"" := by decide +kernel
    unfold roundRect?
    exact (bind_eq_ok_iff.2 ⟨_, rfl, bind_eq_ok_iff.2 ⟨_, fromCatalog_eq_ok_iff.2 hsizes,
      congrArg Except.ok hchosen⟩⟩)
  exact ⟨hround, (hsame.roundRect "R" 9 8).symm.trans hround, hsame.quote⟩

end Engine

end Ventilation
