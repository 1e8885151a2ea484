import Mathlib.Tactic.Basic
import Ventilation.Proofs.Pricing.Routes

/-!
# Multipliers of special colours that cannot be used

An item whose multiplier is not finite or not positive never gets through the chain. So it has no
price, unless it goes the one way around the chain: beyond the limits of a panel a model of a family
is priced from its panels, and its multiplier is not looked at.
-/

set_option autoImplicit false
set_option relaxedAutoImplicit false

namespace Ventilation

def UnusableMultiplier (m : Float) : Prop := m.isFinite = false ∨ m ≤ 0

/-- The multiplier that an item brings along cannot be used. -/
def ItemOptions.HasUnusableMultiplier (item : ItemOptions) : Prop :=
  ∃ m, item.specialColorMultiplier = some m ∧ UnusableMultiplier m

theorem exists_error_of_ne_ok {ε α : Type} {x : Except ε α} (h : ∀ a, x ≠ .ok a) :
    ∃ error, x = .error error := by
  cases x with
  | error error => exact ⟨error, rfl⟩
  | ok a => exact absurd rfl (h a)

namespace Engine

variable {e : Engine} {model : String} {item : ItemOptions} {product : Product}
  {b : PriceBreakdown}

/-- The chain looks at the column first and at the multiplier next, whatever the finish is. -/
theorem chain_ne_ok (hitem : item.HasUnusableMultiplier) (price : TablePrice Float)
    (size : PricedSize) (label : String) : e.chain product item price size label ≠ .ok b := by
  obtain ⟨m, hm, hunusable⟩ := hitem
  have hrefused : (!m.isFinite || decide (m ≤ 0)) = true := by
    rcases hunusable with hinfinite | hle
    · rw [hinfinite]
      rfl
    · rw [decide_eq_true hle, Bool.or_true]
  unfold chain
  rw [hm]
  simp only [Option.getD_some, if_pos hrefused]
  split <;> exact nofun

theorem priceTabulated_ne_ok (hitem : item.HasUnusableMultiplier) (d : Dimensions Float)
    (size : String) : e.priceTabulated model product item d size ≠ .ok b := by
  intro h
  obtain ⟨found, -, h⟩ := bind_eq_ok_iff.1 h
  obtain ⟨price, -, h⟩ := bind_eq_ok_iff.1 h
  obtain ⟨breakdown, hchain, -⟩ := bind_eq_ok_iff.1 h
  exact chain_ne_ok hitem price _ size hchain

theorem priceDiameter_ne_ok (hitem : item.HasUnusableMultiplier) (size : String) :
    e.priceDiameter model item size ≠ .ok b := by
  intro h
  obtain ⟨diameter, -, h⟩ := bind_eq_ok_iff.1 h
  obtain ⟨product, -, h⟩ := bind_eq_ok_iff.1 h
  obtain ⟨found, -, h⟩ := bind_eq_ok_iff.1 h
  obtain ⟨price, -, h⟩ := bind_eq_ok_iff.1 h
  exact chain_ne_ok hitem price _ size h

theorem priceFoot_ne_ok (hitem : item.HasUnusableMultiplier) (side length : Float) :
    e.priceFoot model item side length ≠ .ok b := by
  intro h
  obtain ⟨product, -, h⟩ := bind_eq_ok_iff.1 h
  obtain ⟨found, -, h⟩ := bind_eq_ok_iff.1 h
  obtain ⟨rate, -, h⟩ := bind_eq_ok_iff.1 h
  exact chain_ne_ok hitem _ _ _ h

theorem priceDimensionless_ne_ok (hitem : item.HasUnusableMultiplier) (length : Option Float) :
    e.priceDimensionless model item length ≠ .ok b := by
  intro h
  obtain ⟨product, -, h⟩ := bind_eq_ok_iff.1 h
  obtain ⟨found, -, h⟩ := bind_eq_ok_iff.1 h
  obtain ⟨priceId, -, h⟩ := bind_eq_ok_iff.1 h
  obtain ⟨rate, -, h⟩ := bind_eq_ok_iff.1 h
  cases rate with
  | some rate =>
    cases length with
    | none => cases h
    | some length => exact chain_ne_ok hitem _ _ _ h
  | none =>
    obtain ⟨row, -, h⟩ := bind_eq_ok_iff.1 h
    obtain ⟨price, -, h⟩ := bind_eq_ok_iff.1 h
    exact chain_ne_ok hitem _ _ _ h

/-- A model of a family at a size beyond the limits of its panels, priced from these. -/
def PricedFromPanels (e : Engine) (model size : String) (withDamper : Bool)
    (b : PriceBreakdown) : Prop :=
  ∃ d product family, Size.ofText? size = .ok d ∧ e.product model = .ok product ∧
    e.overrides.familyOf? model = some family ∧ family.isOversized d = true ∧
    family.priceOversized? e.catalog product d withDamper = .ok (some b)

theorem panelled?_eq_ok_some_iff {d : Dimensions Float} {withDamper : Bool} :
    e.panelled? model product d withDamper = .ok (some b) ↔
      ∃ family, e.overrides.familyOf? model = some family ∧ family.isOversized d = true ∧
        family.priceOversized? e.catalog product d withDamper = .ok (some b) := by
  constructor
  · intro h
    obtain ⟨family, hfamily, hsize⟩ := isOversized_of_panelled? h
    refine ⟨family, hfamily, hsize, ?_⟩
    unfold panelled? at h
    rwa [hfamily] at h
  · rintro ⟨family, hfamily, -, h⟩
    unfold panelled?
    rwa [hfamily]

/-- An item with an unusable multiplier is refused on every path, for every size, except for one
that is priced from panels. -/
theorem priced_iff_of_unusableMultiplier (e : Engine) (model : String) (item : ItemOptions)
    (hitem : item.HasUnusableMultiplier) :
    (∀ size b, e.priceRect model item size = .ok b ↔
      e.PricedFromPanels model size item.withDamper b) ∧
    (∀ size, ∃ error, e.priceDiameter model item size = .error error) ∧
    (∀ side length, ∃ error, e.priceFoot model item side length = .error error) ∧
    ∀ length, ∃ error, e.priceDimensionless model item length = .error error := by
  refine ⟨fun size b ↦ ?_,
    fun size ↦ exists_error_of_ne_ok fun _ ↦ priceDiameter_ne_ok hitem size,
    fun side length ↦ exists_error_of_ne_ok fun _ ↦ priceFoot_ne_ok hitem side length,
    fun length ↦ exists_error_of_ne_ok fun _ ↦ priceDimensionless_ne_ok hitem length⟩
  rw [priceRect_eq_ok_iff]
  constructor
  · rintro ⟨d, product, hd, hproduct, hpanelled | ⟨-, htabulated⟩⟩
    · obtain ⟨family, hfamily, hsize, hprice⟩ := panelled?_eq_ok_some_iff.1 hpanelled
      exact ⟨d, product, family, hd, hproduct, hfamily, hsize, hprice⟩
    · exact absurd htabulated (priceTabulated_ne_ok hitem d size)
  · rintro ⟨d, product, family, hd, hproduct, hfamily, hsize, hprice⟩
    exact ⟨d, product, hd, hproduct,
      .inl (panelled?_eq_ok_some_iff.2 ⟨family, hfamily, hsize, hprice⟩)⟩

/-- The family of the standard options, with one price for panels of 50 by 25 inches. -/
def panelled : Engine where
  catalog := {
    products := some [⟨1, 1, "VD", none, none, none, none, none⟩]
    prices := some [⟨1, 1, some 25, some 50, some 300, none, none⟩]
    rowMultipliers := some []
    columnMultipliers := some [] }
  options := .standard
  overrides := ⟨[.standard], [("VD", 0)]⟩

/-- An item in a special colour with the multiplier -1. -/
def negativelyColored : ItemOptions := ⟨some .specialColor, false, some (-1)⟩

theorem hasUnusableMultiplier_negativelyColored : negativelyColored.HasUnusableMultiplier :=
  ⟨-1, rfl, .inr (by decide +kernel)⟩

/-- A single panel is refused. -/
theorem priced_iff_of_unusableMultiplier_panelled : negativelyColored.HasUnusableMultiplier ∧
    ∃ error, panelled.priceRect "VD" negativelyColored "50\" x 25\"" = .error error := by
  have hitem := hasUnusableMultiplier_negativelyColored
  refine ⟨hitem, exists_error_of_ne_ok fun b hb ↦ ?_⟩
  obtain ⟨d, product, family, hd, -, hfamily, hsize, -⟩ :=
    ((priced_iff_of_unusableMultiplier panelled "VD" negativelyColored hitem).1 _ b).1 hb
  have hfamily' : panelled.overrides.familyOf? "VD" = some .standard := rfl
  obtain rfl := Option.some.inj (hfamily.symm.trans hfamily')
  have hd' : Size.ofText? "50\" x 25\"" = .ok ⟨50, 25⟩ := eq_ok_of_toOption (by decide +kernel)
  obtain rfl := Except.ok.inj (hd.symm.trans hd')
  exact absurd hsize (by decide +kernel)

/-- Four panels are sold in spite of the multiplier. -/
theorem panels_sold_with_unusableMultiplier : negativelyColored.HasUnusableMultiplier ∧
    build panelled.catalog .standard = .ok panelled ∧
    (panelled.priceRect "VD" negativelyColored "100\" x 50\"").toOption.map PriceBreakdown.price =
      some 2400 :=
  ⟨hasUnusableMultiplier_negativelyColored, rfl, by decide +kernel⟩

end Engine

end Ventilation
