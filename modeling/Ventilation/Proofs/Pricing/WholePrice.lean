import Mathlib.Tactic.Basic
import Ventilation.Proofs.Number.Nonneg
import Ventilation.Proofs.Pricing.Refusal
import Ventilation.Proofs.Pricing.Routes

/-!
# The range of prices

Every amount passes through `wholePrice` before it is a price, the surcharge for gear cells
included. So every price of an item is a whole number from zero to below 2 ^ 63, whatever its table
and its slots hold.
-/

set_option autoImplicit false
set_option relaxedAutoImplicit false

namespace Ventilation

open Binary64

/-- A whole number that an item can cost. -/
structure IsPrice (n : ℤ) : Prop where
  nonneg : 0 ≤ n
  lt : n < 2 ^ 63

theorem isPrice_of_wholePrice {x : Float} {n : ℤ} (h : wholePrice x = .ok n) : IsPrice n := by
  by_cases hrefused : IsRefused x
  · cases (wholePrice_of_isRefused hrefused).symm.trans h
  · obtain rfl := Except.ok.inj ((wholePrice_of_not_isRefused hrefused).symm.trans h)
    simp only [IsRefused, not_or, Bool.not_eq_false] at hrefused
    have hx : IsNonneg x := isNonneg_of_not_lt (isNumber_of_isFinite hrefused.1) hrefused.2.1
    have hhalf : IsNonneg 0.5 := zero_le_iff.1 (by decide +kernel)
    have hwhole : 0 ≤ place (floor (x + 0.5)) :=
      place_toWhole_nonneg (isNonneg_add hx hhalf).place_nonneg
    exact ⟨toIntWithin_nonneg (by decide) hwhole,
      Int.lt_of_le_sub_one (toIntWithin_le (by decide) (by decide))⟩

variable {e : Engine} {model : String} {item : ItemOptions} {product : Product}
  {b : PriceBreakdown}

theorem ChainInput.isPrice_of_run {input : ChainInput} {tb wd : Option Float} {size : PricedSize}
    {price? : String → Option Float} (h : input.run tb wd size price? = .ok b) :
    IsPrice b.price := by
  obtain ⟨n, hn, rfl⟩ := map_eq_ok_iff.1 h
  exact isPrice_of_wholePrice hn

theorem PriceBreakdown.isPrice_of_withSurcharge {breakdown : PriceBreakdown} {surcharge : Float}
    (h : breakdown.withSurcharge surcharge = .ok b) : IsPrice b.price := by
  obtain ⟨n, hn, rfl⟩ := map_eq_ok_iff.1 h
  exact isPrice_of_wholePrice hn

theorem HandGearFamily.isPrice_of_priceOversized? {family : HandGearFamily Float}
    {catalog : Catalog Float} {d : Dimensions Float} {withDamper : Bool}
    (h : family.priceOversized? catalog product d withDamper = .ok (some b)) : IsPrice b.price := by
  unfold priceOversized? at h
  split at h
  · cases h
  · obtain ⟨panel, -, h⟩ := bind_eq_ok_iff.1 h
    cases panel with
    | none => cases h
    | some panel =>
      cases hbase : panel.eitherBase? withDamper with
      | none =>
        simp only [hbase] at h
        cases h
      | some base =>
        simp only [hbase] at h
        obtain ⟨n, hn, h⟩ := bind_eq_ok_iff.1 h
        obtain rfl := Option.some.inj (Except.ok.inj h)
        exact isPrice_of_wholePrice hn

namespace Engine

theorem isPrice_of_chain {price : TablePrice Float} {size : PricedSize} {label : String}
    (h : e.chain product item price size label = .ok b) : IsPrice b.price := by
  unfold chain at h
  split at h
  · cases h
  · simp only at h
    split at h
    · cases h
    · exact ChainInput.isPrice_of_run h

theorem isPrice_of_priceRect {size : String} (h : e.priceRect model item size = .ok b) :
    IsPrice b.price := by
  obtain ⟨d, product, -, -, hpanelled | ⟨-, h⟩⟩ := priceRect_eq_ok_iff.1 h
  · obtain ⟨family, hfamily, -⟩ := isOversized_of_panelled? hpanelled
    unfold panelled? at hpanelled
    rw [hfamily] at hpanelled
    exact HandGearFamily.isPrice_of_priceOversized? hpanelled
  · obtain ⟨found, -, h⟩ := bind_eq_ok_iff.1 h
    obtain ⟨price, -, h⟩ := bind_eq_ok_iff.1 h
    obtain ⟨breakdown, hchain, h⟩ := bind_eq_ok_iff.1 h
    cases hfamily : e.overrides.familyOf? model with
    | none =>
      rw [hfamily] at h
      obtain rfl := Except.ok.inj h
      exact isPrice_of_chain hchain
    | some family =>
      rw [hfamily] at h
      exact PriceBreakdown.isPrice_of_withSurcharge h

theorem isPrice_of_priceDiameter {size : String} (h : e.priceDiameter model item size = .ok b) :
    IsPrice b.price := by
  obtain ⟨diameter, -, h⟩ := bind_eq_ok_iff.1 h
  obtain ⟨product, -, h⟩ := bind_eq_ok_iff.1 h
  obtain ⟨found, -, h⟩ := bind_eq_ok_iff.1 h
  obtain ⟨price, -, h⟩ := bind_eq_ok_iff.1 h
  exact isPrice_of_chain h

theorem isPrice_of_priceFoot {side length : Float}
    (h : e.priceFoot model item side length = .ok b) : IsPrice b.price := by
  obtain ⟨product, -, h⟩ := bind_eq_ok_iff.1 h
  obtain ⟨found, -, h⟩ := bind_eq_ok_iff.1 h
  obtain ⟨rate, -, h⟩ := bind_eq_ok_iff.1 h
  exact isPrice_of_chain h

theorem isPrice_of_priceDimensionless {length : Option Float}
    (h : e.priceDimensionless model item length = .ok b) : IsPrice b.price := by
  obtain ⟨product, -, h⟩ := bind_eq_ok_iff.1 h
  obtain ⟨found, -, h⟩ := bind_eq_ok_iff.1 h
  obtain ⟨priceId, -, h⟩ := bind_eq_ok_iff.1 h
  obtain ⟨rate, -, h⟩ := bind_eq_ok_iff.1 h
  cases rate with
  | some rate =>
    cases length with
    | none => cases h
    | some length => exact isPrice_of_chain h
  | none =>
    obtain ⟨row, -, h⟩ := bind_eq_ok_iff.1 h
    obtain ⟨price, -, h⟩ := bind_eq_ok_iff.1 h
    exact isPrice_of_chain h

end Engine

end Ventilation
