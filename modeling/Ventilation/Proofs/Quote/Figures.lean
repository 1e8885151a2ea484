import Ventilation.Proofs.Number.Whole
import Ventilation.Proofs.Pricing.Overflow
import Ventilation.Proofs.Pricing.WholePrice
import Ventilation.Proofs.Quote.Line

/-!
# The figures of a line

Before money is reckoned with, no figure of a line is negative: prices are not, and a screen costs
its least price at least. Up to there nothing overflows but the id of the row of a product without
dimensions.
-/

set_option autoImplicit false
set_option relaxedAutoImplicit false

namespace Ventilation

open Binary64

/-! ### No figure is negative -/

/-- A price as a number. With more than 53 bits it is rounded, but stays whole. -/
def IsWholePrice (x : Float) : Prop := ∃ n : ℕ, n ≤ 2 ^ 63 ∧ value? x = some (n : ℚ)

/-- No figure of a line is negative. -/
structure PricedLine.IsNonneg (line : PricedLine) : Prop where
  tablePrice : IsPrice line.tablePrice
  priceAfterFinish : IsPrice line.priceAfterFinish
  filterPrice : IsWholePrice line.filterPrice
  accessoryPrice : 0 ≤ place line.accessoryPrice

theorem isWholePrice_zero : IsWholePrice 0 :=
  ⟨0, Nat.zero_le _, by rw [value?_zero, Nat.cast_zero]⟩

theorem isWholePrice_ofInt {n : ℤ} (h : IsPrice n) : IsWholePrice (ofInt n) := by
  obtain ⟨k, rfl⟩ := Int.eq_ofNat_of_zero_le h.nonneg
  unfold ofInt
  rw [decide_eq_false (Int.not_lt.2 h.nonneg), Int.natAbs_natCast]
  exact exists_value?_nearest (Int.ofNat_lt.1 h.lt)

theorem IsWholePrice.place_nonneg {x : Float} (h : IsWholePrice x) : 0 ≤ place x := by
  obtain ⟨n, -, hx⟩ := h
  rw [← place_zero, ← value?_le_iff value?_zero hx]
  exact_mod_cast Nat.zero_le n

theorem place_larger_nonneg {x least : Float} (h : Binary64.IsNonneg least) :
    0 ≤ place (Scalar.larger x least) := by
  unfold Scalar.larger
  split
  · next hx =>
    split
    · exact h.place_nonneg
    · next hlt =>
      rw [lt_iff] at hlt
      exact h.place_nonneg.trans
        (Int.not_lt.1 fun hplace ↦ hlt ⟨(beq_iff.1 hx).1, h.isNumber, hplace⟩)
  · exact h.place_nonneg

namespace Engine

variable {e : Engine} {r : QuoteRequest} {model : String} {line : PricedLine}

theorem isNonneg_minimum_of_build {catalog : Catalog Float} {options : EngineOptions}
    (h : build catalog options = .ok e) : Binary64.IsNonneg e.options.accessory.minimum := by
  obtain ⟨_, hoptions, h⟩ := bind_eq_ok_iff.1 h
  obtain ⟨overrides, -, h⟩ := bind_eq_ok_iff.1 h
  obtain rfl := Except.ok.inj h
  obtain ⟨_, -, hoptions⟩ := bind_eq_ok_iff.1 hoptions
  obtain ⟨_, haccessory, -⟩ := bind_eq_ok_iff.1 hoptions
  obtain ⟨_, -, hminimum⟩ := bind_eq_ok_iff.1 haccessory
  exact zero_le_iff.1 (checkNonNegative_eq_ok_iff.1 hminimum).2

theorem place_accessoryPrice_nonneg (he : Binary64.IsNonneg e.options.accessory.minimum)
    (d : Dimensions Float) : 0 ≤ place (e.accessoryPrice r d) := by
  unfold accessoryPrice
  split
  · exact place_larger_nonneg he
  · exact place_zero.ge

theorem isWholePrice_filterPrice {size : FilterSize} {x : Float}
    (h : e.filterPrice r size = .ok x) : IsWholePrice x := by
  unfold filterPrice at h
  cases hname : r.filterName? with
  | none =>
    rw [hname] at h
    obtain rfl := Except.ok.inj h
    exact isWholePrice_zero
  | some name =>
    rw [hname] at h
    obtain ⟨found, -, h⟩ := bind_eq_ok_iff.1 h
    cases found with
    | none => cases h
    | some model =>
      cases size with
      | rect d =>
        obtain ⟨rounded, -, h⟩ := bind_eq_ok_iff.1 h
        obtain ⟨breakdown, hprice, h⟩ := bind_eq_ok_iff.1 h
        obtain rfl := Except.ok.inj h
        exact isWholePrice_ofInt (isPrice_of_priceRect (fromPricing_eq_ok_iff.1 hprice))
      | diameter inches =>
        obtain ⟨rounded, -, h⟩ := bind_eq_ok_iff.1 h
        obtain ⟨breakdown, hprice, h⟩ := bind_eq_ok_iff.1 h
        obtain rfl := Except.ok.inj h
        exact isWholePrice_ofInt (isPrice_of_priceDiameter (fromPricing_eq_ok_iff.1 hprice))

theorem isNonneg_of_quoteRectangular (he : Binary64.IsNonneg e.options.accessory.minimum)
    (h : e.quoteRectangular model r = .ok line) : line.IsNonneg := by
  obtain ⟨⟨width, height⟩, -, h⟩ := bind_eq_ok_iff.1 h
  obtain ⟨rounded, -, h⟩ := bind_eq_ok_iff.1 h
  obtain ⟨neutral, hneutral, h⟩ := bind_eq_ok_iff.1 h
  obtain ⟨finished, hfinished, h⟩ := bind_eq_ok_iff.1 h
  obtain ⟨filter, hfilter, h⟩ := bind_eq_ok_iff.1 h
  obtain rfl := Except.ok.inj h
  exact ⟨isPrice_of_priceRect (fromPricing_eq_ok_iff.1 hneutral),
    isPrice_of_priceRect (fromPricing_eq_ok_iff.1 hfinished),
    isWholePrice_filterPrice hfilter, place_accessoryPrice_nonneg he _⟩

theorem isNonneg_of_quotePricePerFoot (he : Binary64.IsNonneg e.options.accessory.minimum)
    (h : e.quotePricePerFoot model r = .ok line) : line.IsNonneg := by
  obtain ⟨⟨width, height⟩, -, h⟩ := bind_eq_ok_iff.1 h
  obtain ⟨side, -, h⟩ := bind_eq_ok_iff.1 h
  cases side with
  | none => cases h
  | some side =>
    obtain ⟨neutral, hneutral, h⟩ := bind_eq_ok_iff.1 h
    obtain ⟨finished, hfinished, h⟩ := bind_eq_ok_iff.1 h
    obtain ⟨filter, hfilter, h⟩ := bind_eq_ok_iff.1 h
    obtain rfl := Except.ok.inj h
    exact ⟨isPrice_of_priceFoot (fromPricing_eq_ok_iff.1 hneutral),
      isPrice_of_priceFoot (fromPricing_eq_ok_iff.1 hfinished),
      isWholePrice_filterPrice hfilter, place_accessoryPrice_nonneg he _⟩

theorem isNonneg_of_quoteDiameter (h : e.quoteDiameter model r = .ok line) : line.IsNonneg := by
  unfold quoteDiameter at h
  cases hdimensions : r.dimensions with
  | diameter length =>
    rw [hdimensions] at h
    obtain ⟨rounded, -, h⟩ := bind_eq_ok_iff.1 h
    obtain ⟨neutral, hneutral, h⟩ := bind_eq_ok_iff.1 h
    obtain ⟨finished, hfinished, h⟩ := bind_eq_ok_iff.1 h
    obtain ⟨filter, hfilter, h⟩ := bind_eq_ok_iff.1 h
    obtain rfl := Except.ok.inj h
    exact ⟨isPrice_of_priceDiameter (fromPricing_eq_ok_iff.1 hneutral),
      isPrice_of_priceDiameter (fromPricing_eq_ok_iff.1 hfinished),
      isWholePrice_filterPrice hfilter, place_zero.ge⟩
  | rectangular _ _ | height _ | none =>
    rw [hdimensions] at h
    cases h

theorem isNonneg_of_quoteDimensionless {perFoot : Bool}
    (h : e.quoteDimensionless model r perFoot = .ok line) : line.IsNonneg := by
  unfold quoteDimensionless at h
  generalize (if perFoot then r.height? else none) = height at h
  by_cases hmissing : (perFoot && height.isNone) = true
  · rw [if_pos hmissing] at h
    cases h
  · rw [if_neg hmissing] at h
    obtain ⟨size, -, h⟩ := bind_eq_ok_iff.1 h
    obtain ⟨neutral, hneutral, h⟩ := bind_eq_ok_iff.1 h
    obtain ⟨finished, hfinished, h⟩ := bind_eq_ok_iff.1 h
    obtain rfl := Except.ok.inj h
    exact ⟨isPrice_of_priceDimensionless (fromPricing_eq_ok_iff.1 hneutral),
      isPrice_of_priceDimensionless (fromPricing_eq_ok_iff.1 hfinished), isWholePrice_zero,
      place_zero.ge⟩

theorem isNonneg_of_priceLine (he : Binary64.IsNonneg e.options.accessory.minimum)
    (h : e.priceLine r = .ok line) : line.IsNonneg := by
  obtain ⟨shape, -, h⟩ := bind_eq_ok_iff.1 h
  cases shape with
  | rectangular => exact isNonneg_of_quoteRectangular he h
  | pricePerFoot => exact isNonneg_of_quotePricePerFoot he h
  | diameter => exact isNonneg_of_quoteDiameter h
  | dimensionless perFoot => exact isNonneg_of_quoteDimensionless h

end Engine

/-! ### Overflow -/

open OverflowsOnly (ok error)

variable {P : Prop}

theorem OverflowsOnly.fromPricing {α : Type} {x : Except PricingError α}
    (hx : OverflowsOnly PricingError.overflow? P x) :
    OverflowsOnly QuoteError.overflow? P (fromPricing x) := by
  cases x with
  | error error =>
    intro error' h hoverflow
    obtain rfl := Except.error.inj h
    exact hx error rfl hoverflow
  | ok a => exact ok a

theorem overflowsOnly_money (x : Float) : OverflowsOnly QuoteError.overflow? P (money x) := by
  unfold money
  cases Decimal.ofFloat? x with
  | none => exact error rfl
  | some d => exact ok _

theorem QuoteRequest.overflowsOnly_sides (r : QuoteRequest) (model : String) :
    OverflowsOnly QuoteError.overflow? P (r.sides model) := by
  unfold sides
  cases r.dimensions with
  | rectangular width height => exact ok _
  | diameter _ | height _ | none => exact error rfl

namespace Engine

/-- The model has no dimensions, and the id of its row overflows. -/
def SlotOverflows (e : Engine) (model : String) : Prop :=
  ∃ product perFoot, e.product model = .ok product ∧
    e.shape model = .ok (.dimensionless perFoot) ∧ e.catalog.IdOverflows product

variable {e : Engine} {r : QuoteRequest} {model : String}

theorem product_eq_ok {product : Product} (h : e.catalog.product? model = .ok (some product)) :
    e.product model = .ok product := by
  unfold Engine.product
  rw [h]
  rfl

theorem overflowsOnly_filterPrice (e : Engine) (r : QuoteRequest) (size : FilterSize) :
    OverflowsOnly QuoteError.overflow? P (e.filterPrice r size) := by
  unfold filterPrice
  cases r.filterName? with
  | none => exact ok _
  | some name =>
    refine (e.overflowsOnly_findFilter name).fromPricing.bind fun found _ ↦ ?_
    cases found with
    | none => exact error rfl
    | some model =>
      cases size with
      | rect d =>
        exact (e.overflowsOnly_roundRect model _ _).fromPricing.bind fun _ _ ↦
          (e.overflowsOnly_priceRect model _ _).fromPricing.bind fun _ _ ↦ ok _
      | diameter inches =>
        exact (e.overflowsOnly_roundDiameter model _).fromPricing.bind fun _ _ ↦
          (e.overflowsOnly_priceDiameter model _ _).fromPricing.bind fun _ _ ↦ ok _

/-- The size of a slot product is asked for with the id of its row. -/
theorem overflowsOnly_slotText (e : Engine) (model : String) (length : Option Length) :
    OverflowsOnly QuoteError.overflow?
      (∃ product, e.catalog.product? model = .ok (some product) ∧ e.catalog.IdOverflows product)
      (e.slotText model length) := by
  unfold slotText
  cases length with
  | some length => exact ok _
  | none =>
    have hheight : OverflowsOnly PricingError.overflow?
        (∃ product, e.catalog.product? model = .ok (some product) ∧ e.catalog.IdOverflows product)
        (e.dimensionlessHeight? model) := by
      refine (e.catalog.overflowsOnly_dimensionlessPriceId model).fromCatalog.bind fun found _ ↦ ?_
      cases found with
      | none => exact ok _
      | some id =>
        exact (Catalog.overflowsOnly_priceRow _ id).fromCatalog.bind fun _ _ ↦ ok _
    refine hheight.fromPricing.bind fun height _ ↦ ?_
    cases height <;> exact ok _

/-- Up to the figures of a line nothing overflows but the id of the row of a product without
dimensions. -/
theorem overflowsOnly_priceLine (e : Engine) (r : QuoteRequest) :
    OverflowsOnly QuoteError.overflow? (e.SlotOverflows (Text.trimmed r.code.model))
      (e.priceLine r) := by
  unfold priceLine
  generalize Text.trimmed r.code.model = model
  refine (e.overflowsOnly_shape model).fromPricing.bind fun shape hshape ↦ ?_
  rw [fromPricing_eq_ok_iff] at hshape
  cases shape with
  | rectangular =>
    exact (r.overflowsOnly_sides _).bind fun ⟨width, height⟩ _ ↦
      (e.overflowsOnly_roundRect model _ _).fromPricing.bind fun rounded _ ↦
        (e.overflowsOnly_priceRect model _ _).fromPricing.bind fun neutral _ ↦
          (e.overflowsOnly_priceRect model _ _).fromPricing.bind fun finished _ ↦
            (e.overflowsOnly_filterPrice r _).bind fun filter _ ↦ ok _
  | pricePerFoot =>
    refine (r.overflowsOnly_sides _).bind fun ⟨width, height⟩ _ ↦
      (e.overflowsOnly_roundFoot model _).fromPricing.bind fun side _ ↦ ?_
    cases side with
    | none => exact error rfl
    | some side =>
      exact (e.overflowsOnly_priceFoot model _ _ _).fromPricing.bind fun neutral _ ↦
        (e.overflowsOnly_priceFoot model _ _ _).fromPricing.bind fun finished _ ↦
          (e.overflowsOnly_filterPrice r _).bind fun filter _ ↦ ok _
  | diameter =>
    simp only [quoteDiameter]
    cases r.dimensions with
    | diameter length =>
      exact (e.overflowsOnly_roundDiameter model _).fromPricing.bind fun rounded _ ↦
        (e.overflowsOnly_priceDiameter model _ _).fromPricing.bind fun neutral _ ↦
          (e.overflowsOnly_priceDiameter model _ _).fromPricing.bind fun finished _ ↦
            (e.overflowsOnly_filterPrice r _).bind fun filter _ ↦ ok _
    | rectangular _ _ | height _ | none => exact error rfl
  | dimensionless perFoot =>
    have hslot : (∃ product, e.catalog.product? model = .ok (some product) ∧
        e.catalog.IdOverflows product) → e.SlotOverflows model :=
      fun ⟨product, hproduct, hid⟩ ↦ ⟨product, perFoot, product_eq_ok hproduct, hshape, hid⟩
    refine OverflowsOnly.mono ?_ hslot
    simp only [quoteDimensionless]
    generalize (if perFoot = true then r.height? else none) = height
    split
    · exact error rfl
    · exact (e.overflowsOnly_slotText model _).bind fun size _ ↦
        (e.overflowsOnly_priceDimensionless model _ _).fromPricing.bind fun neutral _ ↦
          (e.overflowsOnly_priceDimensionless model _ _).fromPricing.bind fun finished _ ↦ ok _

end Engine

end Ventilation
