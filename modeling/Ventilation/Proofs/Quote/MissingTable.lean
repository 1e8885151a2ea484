import Mathlib.Tactic.Basic
import Ventilation.Proofs.Pricing.Dependence
import Ventilation.Proofs.Pricing.Routes
import Ventilation.Quote.Item

/-!
# A missing table fails the question or does not matter

A catalog may lack tables. Whatever an engine is asked then, it either fails and names a table that
is missing, or it answers as it would if the missing tables were there, whatever they held. The
price of a reference has no error of its own, but by the time it is asked for, the products and the
prices have been read, and it reads nothing else.
-/

set_option autoImplicit false
set_option relaxedAutoImplicit false

namespace Ventilation

/-- The failure of a catalog as it shows in a quote. -/
def QuoteError.ofCatalog (error : CatalogError) : QuoteError := .pricing (.catalog error)

/-! ### Catalogs that lack tables -/

namespace Catalog

def Lacks (c : Catalog Float) : CatalogTable → Prop
  | .products => c.products = none
  | .prices => c.prices = none
  | .rowMultipliers => c.rowMultipliers = none
  | .columnMultipliers => c.columnMultipliers = none

/-- Each table of a catalog is missing or the one of another catalog. -/
structure IsPartOf (c c' : Catalog Float) : Prop where
  products : c.products = none ∨ c.products = c'.products
  prices : c.prices = none ∨ c.prices = c'.prices
  rowMultipliers : c.rowMultipliers = none ∨ c.rowMultipliers = c'.rowMultipliers
  columnMultipliers : c.columnMultipliers = none ∨ c.columnMultipliers = c'.columnMultipliers

variable {ε α β : Type} {c c' : Catalog Float} {wrap : CatalogError → ε}

/-- A result is the failure for a table that the catalog lacks, or it is another result. -/
def MissesOrAgrees (c : Catalog Float) (wrap : CatalogError → ε) (x x' : Except ε α) : Prop :=
  (∃ missing, c.Lacks missing ∧ x = .error (wrap (.missing missing))) ∨ x = x'

namespace MissesOrAgrees

variable {x x' : Except ε α}

theorem refl (x : Except ε α) : c.MissesOrAgrees wrap x x := .inr rfl

/-- What follows a result has to agree only where the result is there. -/
theorem bind {f f' : α → Except ε β} (h : c.MissesOrAgrees wrap x x')
    (hf : ∀ a, x = .ok a → c.MissesOrAgrees wrap (f a) (f' a)) :
    c.MissesOrAgrees wrap (x >>= f) (x' >>= f') := by
  rcases h with ⟨missing, hmissing, rfl⟩ | rfl
  · exact .inl ⟨missing, hmissing, rfl⟩
  · cases x with
    | error error => exact .inr rfl
    | ok a => exact hf a rfl

theorem map (h : c.MissesOrAgrees wrap x x') (f : α → β) :
    c.MissesOrAgrees wrap (x.map f) (x'.map f) := by
  rcases h with ⟨missing, hmissing, rfl⟩ | rfl
  · exact .inl ⟨missing, hmissing, rfl⟩
  · exact .inr rfl

theorem fromCatalog {x x' : Answer α} (h : c.MissesOrAgrees id x x') :
    c.MissesOrAgrees .catalog (Ventilation.fromCatalog x) (Ventilation.fromCatalog x') := by
  rcases h with ⟨missing, hmissing, rfl⟩ | rfl
  · exact .inl ⟨missing, hmissing, rfl⟩
  · exact .inr rfl

theorem fromPricing {x x' : Except PricingError α} (h : c.MissesOrAgrees .catalog x x') :
    c.MissesOrAgrees QuoteError.ofCatalog (Ventilation.fromPricing x)
      (Ventilation.fromPricing x') := by
  rcases h with ⟨missing, hmissing, rfl⟩ | rfl
  · exact .inl ⟨missing, hmissing, rfl⟩
  · exact .inr rfl

end MissesOrAgrees

/-! ### Questions of the catalog -/

theorem table_missesOrAgrees {rows rows' : Option (List β)} {which : CatalogTable}
    (hlacks : rows = none → c.Lacks which) (h : rows = none ∨ rows = rows') :
    c.MissesOrAgrees id (table which rows) (table which rows') := by
  rcases h with rfl | rfl
  · exact .inl ⟨which, hlacks rfl, rfl⟩
  · exact .refl _

theorem exists_of_table {rows : Option (List β)} {which : CatalogTable} {found : List β}
    (h : table which rows = .ok found) : rows ≠ none := by
  rintro rfl
  cases h

namespace IsPartOf

theorem productRows (h : c.IsPartOf c') : c.MissesOrAgrees id c.productRows c'.productRows :=
  table_missesOrAgrees id h.products

theorem priceRows (h : c.IsPartOf c') : c.MissesOrAgrees id c.priceRows c'.priceRows :=
  table_missesOrAgrees id h.prices

theorem rowRates (h : c.IsPartOf c') : c.MissesOrAgrees id
    (table .rowMultipliers c.rowMultipliers) (table .rowMultipliers c'.rowMultipliers) :=
  table_missesOrAgrees id h.rowMultipliers

theorem columnRates (h : c.IsPartOf c') : c.MissesOrAgrees id
    (table .columnMultipliers c.columnMultipliers)
    (table .columnMultipliers c'.columnMultipliers) :=
  table_missesOrAgrees id h.columnMultipliers

theorem rowsOf (h : c.IsPartOf c') (tableId : Int) :
    c.MissesOrAgrees id (c.rowsOf tableId) (c'.rowsOf tableId) := h.priceRows.map _

theorem models (h : c.IsPartOf c') : c.MissesOrAgrees id c.models c'.models := h.productRows.map _

theorem product (h : c.IsPartOf c') (model : String) :
    c.MissesOrAgrees id (c.product? model) (c'.product? model) := h.productRows.map _

theorem priceAt (h : c.IsPartOf c') (tableId : Int) (height width : Float) :
    c.MissesOrAgrees id (c.priceAt? tableId height width) (c'.priceAt? tableId height width) :=
  (h.rowsOf tableId).map _

theorem priceAtDiameter (h : c.IsPartOf c') (tableId : Int) (diameter : Float) :
    c.MissesOrAgrees id (c.priceAtDiameter? tableId diameter)
      (c'.priceAtDiameter? tableId diameter) :=
  (h.rowsOf tableId).map _

theorem footRate (h : c.IsPartOf c') (tableId : Int) (size : Float) :
    c.MissesOrAgrees id (c.footRate? tableId size) (c'.footRate? tableId size) :=
  (h.rowsOf tableId).map _

theorem priceRow (h : c.IsPartOf c') (priceId : Int) :
    c.MissesOrAgrees id (c.priceRow? priceId) (c'.priceRow? priceId) := h.priceRows.map _

theorem footRateById (h : c.IsPartOf c') (priceId : Int) :
    c.MissesOrAgrees id (c.footRateById? priceId) (c'.footRateById? priceId) :=
  (h.priceRow priceId).map _

theorem maxDimensions (h : c.IsPartOf c') (tableId : Int) :
    c.MissesOrAgrees id (c.maxDimensions? tableId) (c'.maxDimensions? tableId) :=
  (h.rowsOf tableId).map _

theorem closestPrice (h : c.IsPartOf c') (tableId : Int) (height width : Float) :
    c.MissesOrAgrees id (c.closestPrice? tableId height width)
      (c'.closestPrice? tableId height width) :=
  (h.rowsOf tableId).map _

/-- Rates are read only once the edges of the table are known, and only those of the edges that a
size goes beyond. -/
theorem exceededRate (h : c.IsPartOf c') (tableId : Int) (width height : Float) (damper : Bool) :
    c.MissesOrAgrees id (c.exceededRate? tableId width height damper)
      (c'.exceededRate? tableId width height damper) := by
  unfold exceededRate?
  refine (h.maxDimensions tableId).bind fun edges _ ↦ ?_
  cases edges with
  | none => exact .refl _
  | some edges =>
    simp only
    split
    · exact h.rowRates.bind fun rows _ ↦ h.columnRates.bind fun columns _ ↦ .refl _
    · exact h.columnRates.bind fun columns _ ↦ .refl _
    · exact h.rowRates.bind fun rows _ ↦ .refl _
    · exact .refl _

theorem rectangularPrice (h : c.IsPartOf c') (tableId : Int) (d : Dimensions Float) :
    c.MissesOrAgrees id (c.rectangularPrice? tableId d) (c'.rectangularPrice? tableId d) := by
  unfold rectangularPrice?
  refine (h.exceededRate tableId d.width d.height false).bind fun rate _ ↦ ?_
  cases rate with
  | none => exact h.priceAt tableId d.height d.width
  | some rate => exact (h.exceededRate tableId d.width d.height true).bind fun rate _ ↦ .refl _

theorem anyRow (h : c.IsPartOf c') (model : String) (property : PriceRow Float → Bool) :
    c.MissesOrAgrees id (c.anyRow model property) (c'.anyRow model property) := by
  unfold Catalog.anyRow
  split
  · exact .refl _
  · exact h.productRows.bind fun products _ ↦ h.priceRows.bind fun prices _ ↦ .refl _

theorem shape (h : c.IsPartOf c') (model : String) :
    c.MissesOrAgrees id (c.shape model) (c'.shape model) := by
  unfold Catalog.shape
  refine (h.anyRow model _).bind fun bare _ ↦ ?_
  have hfoot := h.anyRow model fun row ↦ row.pricePerFoot.isSome
  split
  · exact hfoot.bind fun perFoot _ ↦ .refl _
  · refine hfoot.bind fun perFoot _ ↦ ?_
    split
    · exact .refl _
    · exact (h.anyRow model _).bind fun other _ ↦ .refl _

theorem dimensionlessPriceId (h : c.IsPartOf c') (model : String) :
    c.MissesOrAgrees id (c.dimensionlessPriceId? model) (c'.dimensionlessPriceId? model) := by
  unfold dimensionlessPriceId?
  refine (h.product model).bind fun found _ ↦ ?_
  cases found with
  | none => exact .refl _
  | some product =>
    exact h.productRows.bind fun products _ ↦ (h.rowsOf product.tableId).bind fun rows _ ↦ .refl _

/-! ### References -/

theorem products_eq (h : c.IsPartOf c') {model : String} {found : Option Product}
    (hfound : c.product? model = .ok found) : c.products = c'.products := by
  obtain ⟨rows, hrows, -⟩ := map_eq_ok_iff.1 hfound
  exact h.products.resolve_left (exists_of_table hrows)

theorem prices_eq_of_priceRow (h : c.IsPartOf c') {priceId : Int} {found : Option (PriceRow Float)}
    (hfound : c.priceRow? priceId = .ok found) : c.prices = c'.prices := by
  obtain ⟨rows, hrows, -⟩ := map_eq_ok_iff.1 hfound
  exact h.prices.resolve_left (exists_of_table hrows)

theorem prices_eq_of_rowsOf (h : c.IsPartOf c') {tableId : Int} {rows : List (PriceRow Float)}
    (hrows : c.rowsOf tableId = .ok rows) : c.prices = c'.prices := by
  obtain ⟨all, hall, -⟩ := map_eq_ok_iff.1 hrows
  exact h.prices.resolve_left (exists_of_table hall)

/-- Where a rectangle has an answer, the edges of its table were asked for. -/
theorem prices_eq_of_rectangularPrice (h : c.IsPartOf c') {tableId : Int} {d : Dimensions Float}
    {found : Option (TablePrice Float)} (hfound : c.rectangularPrice? tableId d = .ok found) :
    c.prices = c'.prices := by
  obtain ⟨rate, hrate, -⟩ := bind_eq_ok_iff.1 hfound
  obtain ⟨edges, hedges, -⟩ := bind_eq_ok_iff.1 hrate
  obtain ⟨rows, hrows, -⟩ := map_eq_ok_iff.1 hedges
  exact h.prices_eq_of_rowsOf hrows

end IsPartOf

/-- References read nothing but products and prices. -/
theorem referencePrice?_eq_of_tables (hproducts : c.products = c'.products)
    (hprices : c.prices = c'.prices) (size : PricedSize) :
    c.referencePrice? size = c'.referencePrice? size := by
  funext model
  unfold referencePrice? product? productRows priceAt? priceAtDiameter? Catalog.rowsOf
    Catalog.priceRows
  rw [hproducts, hprices]

end Catalog

/-! ### Prices -/

namespace Engine

variable {c c' : Catalog Float} {options : EngineOptions} {overrides : OverrideRegistry}

theorem product_missesOrAgrees (h : c.IsPartOf c') (model : String) :
    c.MissesOrAgrees .catalog (product ⟨c, options, overrides⟩ model)
      (product ⟨c', options, overrides⟩ model) := by
  unfold product
  refine (h.product model).fromCatalog.bind fun found _ ↦ ?_
  cases found with
  | none => exact .refl _
  | some product => exact .refl _

/-- With the product found and the prices read, the chain meets the same references. -/
theorem chain_eq_of_isPartOf (h : c.IsPartOf c') {model : String} {product : Product}
    (hproduct : (⟨c, options, overrides⟩ : Engine).product model = .ok product)
    (hprices : c.prices = c'.prices) (item : ItemOptions) (price : TablePrice Float)
    (size : PricedSize) (label : String) :
    chain ⟨c, options, overrides⟩ product item price size label =
      chain ⟨c', options, overrides⟩ product item price size label := by
  have hreference := Catalog.referencePrice?_eq_of_tables
    (h.products_eq (product?_of_product hproduct)) hprices size
  unfold chain
  rw [hreference]

theorem priceOversized_missesOrAgrees (h : c.IsPartOf c') (f : HandGearFamily Float)
    (product : Product) (d : Dimensions Float) (withDamper : Bool) :
    c.MissesOrAgrees .catalog (f.priceOversized? c product d withDamper)
      (f.priceOversized? c' product d withDamper) := by
  have hpanel : c.MissesOrAgrees id (f.panelPrice? c product.tableId d)
      (f.panelPrice? c' product.tableId d) := by
    refine (h.priceAt _ _ _).bind fun found _ ↦ ?_
    cases found with
    | none => exact (h.closestPrice _ _ _).bind fun closest _ ↦ .refl _
    | some price => exact .refl _
  unfold HandGearFamily.priceOversized?
  cases f.isOversized d with
  | false => exact .refl _
  | true =>
    refine hpanel.fromCatalog.bind fun found _ ↦ ?_
    cases found with
    | none => exact .refl _
    | some panel => exact .refl _

theorem panelled_missesOrAgrees (h : c.IsPartOf c') (model : String) (product : Product)
    (d : Dimensions Float) (withDamper : Bool) :
    c.MissesOrAgrees .catalog (panelled? ⟨c, options, overrides⟩ model product d withDamper)
      (panelled? ⟨c', options, overrides⟩ model product d withDamper) := by
  unfold panelled?
  simp only
  cases overrides.familyOf? model with
  | none => exact .refl _
  | some family => exact priceOversized_missesOrAgrees h family product d withDamper

theorem priceTabulated_missesOrAgrees (h : c.IsPartOf c') {model : String} {product : Product}
    (hproduct : (⟨c, options, overrides⟩ : Engine).product model = .ok product)
    (item : ItemOptions) (d : Dimensions Float) (size : String) :
    c.MissesOrAgrees .catalog
      (priceTabulated ⟨c, options, overrides⟩ model product item d size)
      (priceTabulated ⟨c', options, overrides⟩ model product item d size) := by
  unfold priceTabulated
  refine (h.rectangularPrice product.tableId d).fromCatalog.bind fun found hfound ↦ ?_
  have hprices := h.prices_eq_of_rectangularPrice (fromCatalog_eq_ok_iff.1 hfound)
  simp only [chain_eq_of_isPartOf h hproduct hprices]
  exact .refl _

theorem priceRect_missesOrAgrees (h : c.IsPartOf c') (model : String) (item : ItemOptions)
    (size : String) :
    c.MissesOrAgrees .catalog (priceRect ⟨c, options, overrides⟩ model item size)
      (priceRect ⟨c', options, overrides⟩ model item size) := by
  rw [priceRect_eq_routes, priceRect_eq_routes]
  refine (Catalog.MissesOrAgrees.refl _).bind fun d _ ↦
    (product_missesOrAgrees h model).bind fun product hproduct ↦
      (panelled_missesOrAgrees h model product d item.withDamper).bind fun panelled _ ↦ ?_
  cases panelled with
  | some breakdown => exact .refl _
  | none => exact priceTabulated_missesOrAgrees h hproduct item d size

theorem priceDiameter_missesOrAgrees (h : c.IsPartOf c') (model : String) (item : ItemOptions)
    (size : String) :
    c.MissesOrAgrees .catalog (priceDiameter ⟨c, options, overrides⟩ model item size)
      (priceDiameter ⟨c', options, overrides⟩ model item size) := by
  unfold priceDiameter
  refine (Catalog.MissesOrAgrees.refl _).bind fun diameter _ ↦
    (product_missesOrAgrees h model).bind fun product hproduct ↦ ?_
  refine (h.priceAtDiameter product.tableId diameter).fromCatalog.bind fun found hfound ↦ ?_
  obtain ⟨rows, hrows, -⟩ := map_eq_ok_iff.1 (fromCatalog_eq_ok_iff.1 hfound)
  simp only [chain_eq_of_isPartOf h hproduct (h.prices_eq_of_rowsOf hrows)]
  exact .refl _

theorem priceFoot_missesOrAgrees (h : c.IsPartOf c') (model : String) (item : ItemOptions)
    (side length : Float) :
    c.MissesOrAgrees .catalog (priceFoot ⟨c, options, overrides⟩ model item side length)
      (priceFoot ⟨c', options, overrides⟩ model item side length) := by
  unfold priceFoot
  refine (product_missesOrAgrees h model).bind fun product hproduct ↦ ?_
  refine (h.footRate product.tableId (Binary64.trunc side)).fromCatalog.bind fun found hfound ↦ ?_
  obtain ⟨rows, hrows, -⟩ := map_eq_ok_iff.1 (fromCatalog_eq_ok_iff.1 hfound)
  simp only [chain_eq_of_isPartOf h hproduct (h.prices_eq_of_rowsOf hrows)]
  exact .refl _

theorem priceDimensionless_missesOrAgrees (h : c.IsPartOf c') (model : String)
    (item : ItemOptions) (length : Option Float) :
    c.MissesOrAgrees .catalog (priceDimensionless ⟨c, options, overrides⟩ model item length)
      (priceDimensionless ⟨c', options, overrides⟩ model item length) := by
  unfold priceDimensionless
  refine (product_missesOrAgrees h model).bind fun product hproduct ↦ ?_
  refine (h.dimensionlessPriceId model).fromCatalog.bind fun found _ ↦
    (Catalog.MissesOrAgrees.refl _).bind fun priceId _ ↦ ?_
  refine (h.footRateById priceId).fromCatalog.bind fun rate hrate ↦ ?_
  obtain ⟨row, hrow, -⟩ := map_eq_ok_iff.1 (fromCatalog_eq_ok_iff.1 hrate)
  have hchain := chain_eq_of_isPartOf h hproduct (h.prices_eq_of_priceRow hrow)
  cases rate with
  | some rate =>
    simp only [hchain]
    exact .refl _
  | none =>
    simp only [hchain]
    exact (h.priceRow priceId).fromCatalog.bind fun row _ ↦ .refl _

/-! ### Rounding -/

theorem roundRect_missesOrAgrees (h : c.IsPartOf c') (model : String) (width height : Float) :
    c.MissesOrAgrees .catalog (roundRect? ⟨c, options, overrides⟩ model width height)
      (roundRect? ⟨c', options, overrides⟩ model width height) := by
  unfold roundRect?
  exact (product_missesOrAgrees h model).bind fun product _ ↦
    ((h.rowsOf product.tableId).map _).fromCatalog.bind fun sizes _ ↦ .refl _

theorem roundDiameter_missesOrAgrees (h : c.IsPartOf c') (model : String) (diameter : Float) :
    c.MissesOrAgrees .catalog (roundDiameter? ⟨c, options, overrides⟩ model diameter)
      (roundDiameter? ⟨c', options, overrides⟩ model diameter) := by
  unfold roundDiameter?
  exact (product_missesOrAgrees h model).bind fun product _ ↦
    ((h.rowsOf product.tableId).map _).fromCatalog.bind fun sizes _ ↦ .refl _

theorem roundFoot_missesOrAgrees (h : c.IsPartOf c') (model : String) (width : Float) :
    c.MissesOrAgrees .catalog (roundFoot? ⟨c, options, overrides⟩ model width)
      (roundFoot? ⟨c', options, overrides⟩ model width) := by
  unfold roundFoot?
  exact (product_missesOrAgrees h model).bind fun product _ ↦
    ((h.rowsOf product.tableId).map _).fromCatalog.bind fun sizes _ ↦ .refl _

theorem findFilter_missesOrAgrees (h : c.IsPartOf c') (name : String) :
    c.MissesOrAgrees .catalog (findFilter? ⟨c, options, overrides⟩ name)
      (findFilter? ⟨c', options, overrides⟩ name) := by
  unfold findFilter?
  simp only
  split
  · exact .refl _
  · exact h.models.fromCatalog.bind fun models _ ↦ .refl _

theorem shape_missesOrAgrees (h : c.IsPartOf c') (model : String) :
    c.MissesOrAgrees .catalog (shape ⟨c, options, overrides⟩ model)
      (shape ⟨c', options, overrides⟩ model) := by
  unfold shape
  exact (product_missesOrAgrees h model).bind fun product _ ↦ (h.shape model).fromCatalog

/-! ### Quote lines -/

variable {r : QuoteRequest}

theorem filterPrice_missesOrAgrees (h : c.IsPartOf c') (size : FilterSize) :
    c.MissesOrAgrees .ofCatalog (filterPrice ⟨c, options, overrides⟩ r size)
      (filterPrice ⟨c', options, overrides⟩ r size) := by
  unfold filterPrice
  cases r.filterName? with
  | none => exact .refl _
  | some name =>
    refine (findFilter_missesOrAgrees h name).fromPricing.bind fun found _ ↦ ?_
    cases found with
    | none => exact .refl _
    | some model =>
      cases size with
      | rect d =>
        exact (roundRect_missesOrAgrees h model _ _).fromPricing.bind fun rounded _ ↦
          (priceRect_missesOrAgrees h model _ _).fromPricing.bind fun breakdown _ ↦ .refl _
      | diameter inches =>
        exact (roundDiameter_missesOrAgrees h model _).fromPricing.bind fun rounded _ ↦
          (priceDiameter_missesOrAgrees h model _ _).fromPricing.bind fun breakdown _ ↦ .refl _

theorem quoteRectangular_missesOrAgrees (h : c.IsPartOf c') (model : String) :
    c.MissesOrAgrees .ofCatalog (quoteRectangular ⟨c, options, overrides⟩ model r)
      (quoteRectangular ⟨c', options, overrides⟩ model r) := by
  unfold quoteRectangular
  exact (Catalog.MissesOrAgrees.refl _).bind fun sides _ ↦
    (roundRect_missesOrAgrees h model _ _).fromPricing.bind fun rounded _ ↦
    (priceRect_missesOrAgrees h model _ _).fromPricing.bind fun neutral _ ↦
    (priceRect_missesOrAgrees h model _ _).fromPricing.bind fun finished _ ↦
    (filterPrice_missesOrAgrees h _).bind fun filter _ ↦ .refl _

theorem quotePricePerFoot_missesOrAgrees (h : c.IsPartOf c') (model : String) :
    c.MissesOrAgrees .ofCatalog (quotePricePerFoot ⟨c, options, overrides⟩ model r)
      (quotePricePerFoot ⟨c', options, overrides⟩ model r) := by
  unfold quotePricePerFoot
  refine (Catalog.MissesOrAgrees.refl _).bind fun sides _ ↦
    (roundFoot_missesOrAgrees h model _).fromPricing.bind fun found _ ↦ ?_
  cases found with
  | none => exact .refl _
  | some side =>
    exact (priceFoot_missesOrAgrees h model _ _ _).fromPricing.bind fun neutral _ ↦
      (priceFoot_missesOrAgrees h model _ _ _).fromPricing.bind fun finished _ ↦
      (filterPrice_missesOrAgrees h _).bind fun filter _ ↦ .refl _

theorem quoteDiameter_missesOrAgrees (h : c.IsPartOf c') (model : String) :
    c.MissesOrAgrees .ofCatalog (quoteDiameter ⟨c, options, overrides⟩ model r)
      (quoteDiameter ⟨c', options, overrides⟩ model r) := by
  unfold quoteDiameter
  split
  · exact (roundDiameter_missesOrAgrees h model _).fromPricing.bind fun rounded _ ↦
      (priceDiameter_missesOrAgrees h model _ _).fromPricing.bind fun neutral _ ↦
      (priceDiameter_missesOrAgrees h model _ _).fromPricing.bind fun finished _ ↦
      (filterPrice_missesOrAgrees h _).bind fun filter _ ↦ .refl _
  · exact .refl _

theorem slotText_missesOrAgrees (h : c.IsPartOf c') (model : String) (length : Option Length) :
    c.MissesOrAgrees .ofCatalog (slotText ⟨c, options, overrides⟩ model length)
      (slotText ⟨c', options, overrides⟩ model length) := by
  have hheight : c.MissesOrAgrees .catalog (dimensionlessHeight? ⟨c, options, overrides⟩ model)
      (dimensionlessHeight? ⟨c', options, overrides⟩ model) := by
    unfold dimensionlessHeight?
    refine (h.dimensionlessPriceId model).fromCatalog.bind fun found _ ↦ ?_
    cases found with
    | none => exact .refl _
    | some priceId => exact (h.priceRow priceId).fromCatalog.bind fun row _ ↦ .refl _
  unfold slotText
  cases length with
  | some length => exact .refl _
  | none => exact hheight.fromPricing.bind fun height _ ↦ .refl _

theorem quoteDimensionless_missesOrAgrees (h : c.IsPartOf c') (model : String) (perFoot : Bool) :
    c.MissesOrAgrees .ofCatalog (quoteDimensionless ⟨c, options, overrides⟩ model r perFoot)
      (quoteDimensionless ⟨c', options, overrides⟩ model r perFoot) := by
  unfold quoteDimensionless
  generalize (if perFoot then r.height? else none) = height
  by_cases hmissing : (perFoot && height.isNone) = true
  · rw [if_pos hmissing, if_pos hmissing]
    exact (Catalog.MissesOrAgrees.refl _).bind fun _ hok ↦ nomatch hok
  · rw [if_neg hmissing, if_neg hmissing]
    exact (slotText_missesOrAgrees h model height).bind fun size _ ↦
      (priceDimensionless_missesOrAgrees h model _ _).fromPricing.bind fun neutral _ ↦
      (priceDimensionless_missesOrAgrees h model _ _).fromPricing.bind fun finished _ ↦ .refl _

theorem quote_missesOrAgrees (h : c.IsPartOf c') (r : QuoteRequest) :
    c.MissesOrAgrees .ofCatalog (quote ⟨c, options, overrides⟩ r)
      (quote ⟨c', options, overrides⟩ r) := by
  have hline : c.MissesOrAgrees .ofCatalog (priceLine ⟨c, options, overrides⟩ r)
      (priceLine ⟨c', options, overrides⟩ r) := by
    unfold priceLine
    refine (shape_missesOrAgrees h _).fromPricing.bind fun shape _ ↦ ?_
    cases shape with
    | rectangular => exact quoteRectangular_missesOrAgrees h _
    | pricePerFoot => exact quotePricePerFoot_missesOrAgrees h _
    | diameter => exact quoteDiameter_missesOrAgrees h _
    | dimensionless perFoot => exact quoteDimensionless_missesOrAgrees h _ perFoot
  unfold quote
  exact hline.bind fun line _ ↦ .refl _

/-- Every result of an engine is the failure for a table that its catalog lacks, or the result of
another engine. -/
structure MissesOrAgrees (e e' : Engine) : Prop where
  models : e.catalog.MissesOrAgrees id e.catalog.models e'.catalog.models
  isOtherTable : ∀ model, e.catalog.MissesOrAgrees id (e.catalog.isOtherTable model)
    (e'.catalog.isOtherTable model)
  hasPricePerFoot : ∀ model, e.catalog.MissesOrAgrees id (e.catalog.hasPricePerFoot model)
    (e'.catalog.hasPricePerFoot model)
  hasNoDimensions : ∀ model, e.catalog.MissesOrAgrees id (e.catalog.hasNoDimensions model)
    (e'.catalog.hasNoDimensions model)
  availableFinishes : ∀ model, e.catalog.MissesOrAgrees .catalog (e.availableFinishes model)
    (e'.availableFinishes model)
  hasDamper : ∀ model, e.catalog.MissesOrAgrees .catalog (e.hasDamper model) (e'.hasDamper model)
  shape : ∀ model, e.catalog.MissesOrAgrees .catalog (e.shape model) (e'.shape model)
  findFilter : ∀ name, e.catalog.MissesOrAgrees .catalog (e.findFilter? name) (e'.findFilter? name)
  roundRect : ∀ model width height, e.catalog.MissesOrAgrees .catalog
    (e.roundRect? model width height) (e'.roundRect? model width height)
  roundDiameter : ∀ model diameter, e.catalog.MissesOrAgrees .catalog
    (e.roundDiameter? model diameter) (e'.roundDiameter? model diameter)
  roundFoot : ∀ model width, e.catalog.MissesOrAgrees .catalog (e.roundFoot? model width)
    (e'.roundFoot? model width)
  priceRect : ∀ model item size, e.catalog.MissesOrAgrees .catalog (e.priceRect model item size)
    (e'.priceRect model item size)
  priceDiameter : ∀ model item size, e.catalog.MissesOrAgrees .catalog
    (e.priceDiameter model item size) (e'.priceDiameter model item size)
  priceFoot : ∀ model item side length, e.catalog.MissesOrAgrees .catalog
    (e.priceFoot model item side length) (e'.priceFoot model item side length)
  priceDimensionless : ∀ model item length, e.catalog.MissesOrAgrees .catalog
    (e.priceDimensionless model item length) (e'.priceDimensionless model item length)
  quote : ∀ r, e.catalog.MissesOrAgrees .ofCatalog (e.quote r) (e'.quote r)

/-- An engine over a catalog that lacks tables either fails for one of them or answers as it would
over every catalog that has them, whatever they hold. -/
theorem missesOrAgrees_of_isPartOf (options : EngineOptions) (overrides : OverrideRegistry)
    (c c' : Catalog Float) (h : c.IsPartOf c') :
    MissesOrAgrees ⟨c, options, overrides⟩ ⟨c', options, overrides⟩ where
  models := h.models
  isOtherTable model := h.anyRow model _
  hasPricePerFoot model := h.anyRow model _
  hasNoDimensions model := h.anyRow model _
  availableFinishes model := (product_missesOrAgrees h model).map _
  hasDamper model := (product_missesOrAgrees h model).map _
  shape := shape_missesOrAgrees h
  findFilter := findFilter_missesOrAgrees h
  roundRect := roundRect_missesOrAgrees h
  roundDiameter := roundDiameter_missesOrAgrees h
  roundFoot := roundFoot_missesOrAgrees h
  priceRect := priceRect_missesOrAgrees h
  priceDiameter := priceDiameter_missesOrAgrees h
  priceFoot := priceFoot_missesOrAgrees h
  priceDimensionless := priceDimensionless_missesOrAgrees h
  quote := quote_missesOrAgrees h

/-- The catalog of a model that refers to another one, without any rates. -/
def unrated : Catalog Float := { referring none 2 with rowMultipliers := none }

/-- Within the table a missing rate does not matter; beyond its edge there is no price. -/
theorem missesOrAgrees_of_isPartOf_unrated : unrated.IsPartOf (referring none 2) ∧
    priceRect ⟨unrated, .standard, .empty⟩ "M" .standard "10\" x 10\"" =
      priceRect ⟨referring none 2, .standard, .empty⟩ "M" .standard "10\" x 10\"" ∧
    (priceRect ⟨unrated, .standard, .empty⟩ "M" .standard "10\" x 10\"").toOption.map
      PriceBreakdown.price = some 12 ∧
    priceRect ⟨unrated, .standard, .empty⟩ "M" .standard "10\" x 20\"" =
      .error (.catalog (.missing .rowMultipliers)) := by
  have hpart : unrated.IsPartOf (referring none 2) := ⟨.inr rfl, .inr rfl, .inl rfl, .inr rfl⟩
  have hsame := missesOrAgrees_of_isPartOf .standard .empty unrated (referring none 2) hpart
  have hprice : (priceRect ⟨unrated, .standard, .empty⟩ "M" .standard "10\" x 10\"").toOption.map
      PriceBreakdown.price = some 12 := by decide +kernel
  refine ⟨hpart, ?_, hprice, rfl⟩
  rcases hsame.priceRect "M" .standard "10\" x 10\"" with ⟨missing, -, herror⟩ | heq
  · rw [herror] at hprice
    cases hprice
  · exact heq

end Engine

end Ventilation
