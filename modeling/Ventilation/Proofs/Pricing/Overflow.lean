import Ventilation.Pricing.Engine
import Ventilation.Proofs.Catalog.SlotId

/-!
# Where prices overflow

Of all questions to a catalog only one reckons with ids, that for the row of a product without
dimensions. So no price overflows but that of such a product, and that one only where the id of the
row does.
-/

set_option autoImplicit false
set_option relaxedAutoImplicit false

namespace Ventilation

section Computations

variable {ε α β : Type} {overflow? : ε → Option String} {P Q : Prop}

/-- A computation overflows only where `P` holds. -/
def OverflowsOnly (overflow? : ε → Option String) (P : Prop) (x : Except ε α) : Prop :=
  ∀ error, x = .error error → overflow? error ≠ none → P

namespace OverflowsOnly

theorem ok (a : α) : OverflowsOnly overflow? P (.ok a) := nofun

theorem error {error : ε} (h : overflow? error = none) :
    OverflowsOnly overflow? P (.error error : Except ε α) := by
  intro error' herror hoverflow
  rw [← Except.error.inj herror] at hoverflow
  exact absurd h hoverflow

theorem mono {x : Except ε α} (h : OverflowsOnly overflow? P x) (hPQ : P → Q) :
    OverflowsOnly overflow? Q x :=
  fun error herror hoverflow ↦ hPQ (h error herror hoverflow)

theorem bind {x : Except ε α} {f : α → Except ε β} (hx : OverflowsOnly overflow? P x)
    (hf : ∀ a, x = .ok a → OverflowsOnly overflow? P (f a)) :
    OverflowsOnly overflow? P (x >>= f) := by
  intro error h hoverflow
  rcases bind_eq_error_iff.1 h with hx' | ⟨a, ha, hfa⟩
  · exact hx error hx' hoverflow
  · exact hf a ha error hfa hoverflow

theorem map {x : Except ε α} (hx : OverflowsOnly overflow? P x) (f : α → β) :
    OverflowsOnly overflow? P (x.map f) := by
  cases x with
  | error error => exact fun error' h ↦ hx error' (congrArg Except.error (Except.error.inj h))
  | ok a => exact ok (f a)

theorem fromCatalog {x : Except CatalogError α} (hx : OverflowsOnly CatalogError.overflow? P x) :
    OverflowsOnly PricingError.overflow? P (fromCatalog x) := by
  cases x with
  | error error =>
    intro error' h hoverflow
    obtain rfl := Except.error.inj h
    exact hx error rfl hoverflow
  | ok a => exact ok a

theorem fromMeasure (x : Except MeasureError α) :
    OverflowsOnly PricingError.overflow? P (fromMeasure x) := by
  cases x with
  | error e => exact error rfl
  | ok a => exact ok a

end OverflowsOnly

end Computations

open OverflowsOnly (ok error)

variable {P : Prop}

/-! ### Answers of the catalog -/

namespace Catalog

theorem overflowsOnly_table {β : Type} (which : CatalogTable) (held : Option (List β)) :
    OverflowsOnly CatalogError.overflow? P (table which held) := by
  cases held with
  | none => exact error rfl
  | some rows => exact ok rows

theorem overflowsOnly_product (c : Catalog Float) (model : String) :
    OverflowsOnly CatalogError.overflow? P (c.product? model) :=
  (overflowsOnly_table _ _).map _

theorem overflowsOnly_rowsOf (c : Catalog Float) (tableId : Int) :
    OverflowsOnly CatalogError.overflow? P (c.rowsOf tableId) :=
  (overflowsOnly_table _ _).map _

theorem overflowsOnly_priceRow (c : Catalog Float) (priceId : Int) :
    OverflowsOnly CatalogError.overflow? P (c.priceRow? priceId) :=
  (overflowsOnly_table _ _).map _

theorem overflowsOnly_anyRow (c : Catalog Float) (model : String)
    (property : PriceRow Float → Bool) :
    OverflowsOnly CatalogError.overflow? P (c.anyRow model property) := by
  unfold anyRow
  split
  · exact ok _
  · exact (overflowsOnly_table _ _).bind fun _ _ ↦ (overflowsOnly_table _ _).bind fun _ _ ↦ ok _

theorem overflowsOnly_shape (c : Catalog Float) (model : String) :
    OverflowsOnly CatalogError.overflow? P (c.shape model) := by
  unfold shape
  refine (overflowsOnly_anyRow c model _).bind fun bare _ ↦ ?_
  have hfoot := overflowsOnly_anyRow (P := P) c model fun row ↦ row.pricePerFoot.isSome
  split
  · exact hfoot.bind fun _ _ ↦ ok _
  · refine hfoot.bind fun perFoot _ ↦ ?_
    split
    · exact ok _
    · refine (overflowsOnly_anyRow c model _).bind fun other _ ↦ ?_
      split <;> exact ok _

theorem overflowsOnly_exceededRate (c : Catalog Float) (tableId : Int) (width height : Float)
    (damper : Bool) :
    OverflowsOnly CatalogError.overflow? P (c.exceededRate? tableId width height damper) := by
  refine ((overflowsOnly_rowsOf c tableId).map _).bind fun edges _ ↦ ?_
  cases edges with
  | none => exact ok _
  | some edges =>
    have hrows := overflowsOnly_table (P := P) .rowMultipliers c.rowMultipliers
    have hcolumns := overflowsOnly_table (P := P) .columnMultipliers c.columnMultipliers
    dsimp only
    split
    · exact hrows.bind fun _ _ ↦ hcolumns.bind fun _ _ ↦ ok _
    · exact hcolumns.bind fun _ _ ↦ ok _
    · exact hrows.bind fun _ _ ↦ ok _
    · exact ok _

theorem overflowsOnly_rectangularPrice (c : Catalog Float) (tableId : Int) (d : Dimensions Float) :
    OverflowsOnly CatalogError.overflow? P (c.rectangularPrice? tableId d) := by
  refine (overflowsOnly_exceededRate c tableId _ _ _).bind fun rate _ ↦ ?_
  cases rate with
  | none => exact (overflowsOnly_rowsOf c tableId).map _
  | some rate => exact (overflowsOnly_exceededRate c tableId _ _ _).bind fun _ _ ↦ ok _

/-- The question for the row of a product overflows only where the id does. -/
theorem overflowsOnly_dimensionlessPriceId (c : Catalog Float) (model : String) :
    OverflowsOnly CatalogError.overflow?
      (∃ product, c.product? model = .ok (some product) ∧ c.IdOverflows product)
      (c.dimensionlessPriceId? model) := by
  intro error h hoverflow
  cases hfound : c.product? model with
  | error error' =>
    unfold dimensionlessPriceId? at h
    rw [hfound] at h
    obtain rfl := Except.error.inj h
    exact overflowsOnly_product c model error' hfound hoverflow
  | ok found =>
    cases found with
    | none =>
      unfold dimensionlessPriceId? at h
      rw [hfound] at h
      cases h
    | some product =>
      refine ⟨product, rfl, (exists_overflow_iff hfound).1 ?_⟩
      cases error with
      | overflow operation => exact ⟨operation, h⟩
      | noFile | missing _ => exact absurd rfl hoverflow

end Catalog

/-! ### Prices -/

theorem overflowsOnly_wholePrice (x : Float) :
    OverflowsOnly PricingError.overflow? P (wholePrice x) := by
  unfold wholePrice
  split
  · exact error rfl
  · exact ok _

theorem overflowsOnly_priceOversized (f : HandGearFamily Float) (catalog : Catalog Float)
    (product : Product) (d : Dimensions Float) (withDamper : Bool) :
    OverflowsOnly PricingError.overflow? P
      (f.priceOversized? catalog product d withDamper) := by
  have hpanel : OverflowsOnly CatalogError.overflow? P
      (f.panelPrice? catalog product.tableId d) := by
    refine ((Catalog.overflowsOnly_rowsOf catalog product.tableId).map _).bind fun price _ ↦ ?_
    cases price with
    | some price => exact ok _
    | none => exact ((Catalog.overflowsOnly_rowsOf catalog _).map _).bind fun _ _ ↦ ok _
  unfold HandGearFamily.priceOversized?
  split
  · exact ok _
  · refine hpanel.fromCatalog.bind fun panel _ ↦ ?_
    cases panel with
    | none => exact ok _
    | some panel =>
      dsimp only
      split
      · exact ok _
      · exact (overflowsOnly_wholePrice _).bind fun _ _ ↦ ok _

namespace Engine

theorem overflowsOnly_required {α : Type} (model size : String) (price : Option α) :
    OverflowsOnly PricingError.overflow? P (required model size price) := by
  cases price with
  | none => exact error rfl
  | some price => exact ok price

theorem overflowsOnly_product (e : Engine) (model : String) :
    OverflowsOnly PricingError.overflow? P (e.product model) := by
  refine (Catalog.overflowsOnly_product _ model).fromCatalog.bind fun found _ ↦ ?_
  cases found with
  | none => exact error rfl
  | some product => exact ok product

theorem overflowsOnly_shape (e : Engine) (model : String) :
    OverflowsOnly PricingError.overflow? P (e.shape model) :=
  (e.overflowsOnly_product model).bind fun _ _ ↦
    (Catalog.overflowsOnly_shape _ model).fromCatalog

theorem overflowsOnly_findFilter (e : Engine) (name : String) :
    OverflowsOnly PricingError.overflow? P (e.findFilter? name) := by
  unfold findFilter?
  dsimp only
  split
  · exact ok _
  · exact ((Catalog.overflowsOnly_table _ _).map _).fromCatalog.bind fun _ _ ↦ ok _

theorem overflowsOnly_roundRect (e : Engine) (model : String) (width height : Float) :
    OverflowsOnly PricingError.overflow? P (e.roundRect? model width height) :=
  (e.overflowsOnly_product model).bind fun _ _ ↦
    ((Catalog.overflowsOnly_rowsOf _ _).map _).fromCatalog.bind fun _ _ ↦ ok _

theorem overflowsOnly_roundDiameter (e : Engine) (model : String) (diameter : Float) :
    OverflowsOnly PricingError.overflow? P (e.roundDiameter? model diameter) :=
  (e.overflowsOnly_product model).bind fun _ _ ↦
    ((Catalog.overflowsOnly_rowsOf _ _).map _).fromCatalog.bind fun _ _ ↦ ok _

theorem overflowsOnly_roundFoot (e : Engine) (model : String) (width : Float) :
    OverflowsOnly PricingError.overflow? P (e.roundFoot? model width) :=
  (e.overflowsOnly_product model).bind fun _ _ ↦
    ((Catalog.overflowsOnly_rowsOf _ _).map _).fromCatalog.bind fun _ _ ↦ ok _

theorem overflowsOnly_chain (e : Engine) (product : Product) (item : ItemOptions)
    (price : TablePrice Float) (size : PricedSize) (label : String) :
    OverflowsOnly PricingError.overflow? P (e.chain product item price size label) := by
  unfold chain
  split
  · exact error rfl
  · dsimp only
    split
    · exact error rfl
    · exact (overflowsOnly_wholePrice _).map _

theorem overflowsOnly_priceRect (e : Engine) (model : String) (item : ItemOptions)
    (size : String) : OverflowsOnly PricingError.overflow? P (e.priceRect model item size) := by
  refine (OverflowsOnly.fromMeasure _).bind fun d _ ↦
    (e.overflowsOnly_product model).bind fun product _ ↦ ?_
  have htable (f : PriceBreakdown → Except PricingError PriceBreakdown)
      (hf : ∀ b, OverflowsOnly PricingError.overflow? P (f b)) :
      OverflowsOnly PricingError.overflow? P (do
        let found ← fromCatalog (e.catalog.rectangularPrice? product.tableId d)
        let price ← required model size found
        let breakdown ← e.chain product item price (.rect d.width d.height) size
        f breakdown) :=
    (Catalog.overflowsOnly_rectangularPrice _ _ d).fromCatalog.bind fun found _ ↦
      (overflowsOnly_required model size found).bind fun price _ ↦
        (e.overflowsOnly_chain product item price _ size).bind fun b _ ↦ hf b
  cases hfamily : e.overrides.familyOf? model with
  | none => exact htable _ fun b ↦ ok b
  | some family =>
    refine (overflowsOnly_priceOversized family _ _ d _).bind fun panelled _ ↦ ?_
    cases panelled with
    | some breakdown => exact ok breakdown
    | none => exact htable _ fun b ↦ (overflowsOnly_wholePrice _).map _

theorem overflowsOnly_priceDiameter (e : Engine) (model : String) (item : ItemOptions)
    (size : String) : OverflowsOnly PricingError.overflow? P (e.priceDiameter model item size) :=
  (OverflowsOnly.fromMeasure _).bind fun _ _ ↦
    (e.overflowsOnly_product model).bind fun product _ ↦
      ((Catalog.overflowsOnly_rowsOf _ _).map _).fromCatalog.bind fun found _ ↦
        (overflowsOnly_required model size found).bind fun price _ ↦
          e.overflowsOnly_chain product item price _ size

theorem overflowsOnly_priceFoot (e : Engine) (model : String) (item : ItemOptions)
    (side length : Float) :
    OverflowsOnly PricingError.overflow? P (e.priceFoot model item side length) :=
  (e.overflowsOnly_product model).bind fun product _ ↦
    ((Catalog.overflowsOnly_rowsOf _ _).map _).fromCatalog.bind fun found _ ↦
      (overflowsOnly_required model _ found).bind fun _ _ ↦
        e.overflowsOnly_chain product item _ _ _

/-- The price of a product without dimensions overflows only where the id of its row does. -/
theorem overflowsOnly_priceDimensionless (e : Engine) (model : String) (item : ItemOptions)
    (length : Option Float) :
    OverflowsOnly PricingError.overflow?
      (∃ product, e.catalog.product? model = .ok (some product) ∧ e.catalog.IdOverflows product)
      (e.priceDimensionless model item length) := by
  refine (e.overflowsOnly_product model).bind fun product _ ↦
    (Catalog.overflowsOnly_dimensionlessPriceId _ model).fromCatalog.bind fun found _ ↦
      (overflowsOnly_required model _ found).bind fun priceId _ ↦
        ((Catalog.overflowsOnly_priceRow _ priceId).map _).fromCatalog.bind fun rate _ ↦ ?_
  cases rate with
  | some rate =>
    cases length with
    | some length => exact e.overflowsOnly_chain product item _ _ _
    | none => exact error rfl
  | none =>
    exact (Catalog.overflowsOnly_priceRow _ _).fromCatalog.bind fun row _ ↦
      (overflowsOnly_required model _ _).bind fun price _ ↦
        e.overflowsOnly_chain product item price _ _

end Engine

end Ventilation
