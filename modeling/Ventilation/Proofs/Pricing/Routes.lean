import Mathlib.Tactic.Basic
import Ventilation.Pricing.Engine
import Ventilation.Proofs.Pricing.Answer

/-!
# The two routes to the price of a rectangle

A rectangle is priced from the panels of its family or through the chain from the table. The first
route is taken by items beyond the limits of a panel; what it says ends the matter.
-/

set_option autoImplicit false
set_option relaxedAutoImplicit false

namespace Ventilation.Engine

/-- The price from panels, for a model of a family. -/
def panelled? (e : Engine) (model : String) (product : Product) (d : Dimensions Float)
    (withDamper : Bool) : Except PricingError (Option PriceBreakdown) :=
  match e.overrides.familyOf? model with
  | some family => family.priceOversized? e.catalog product d withDamper
  | none => .ok none

/-- The price through the chain, with the gear cells of a model of a family. -/
def priceTabulated (e : Engine) (model : String) (product : Product) (item : ItemOptions)
    (d : Dimensions Float) (size : String) : Except PricingError PriceBreakdown := do
  let found ← fromCatalog (e.catalog.rectangularPrice? product.tableId d)
  let price ← required model size found
  let breakdown ← e.chain product item price (.rect d.width d.height) size
  match e.overrides.familyOf? model with
  | some family => breakdown.withSurcharge (family.surcharge d)
  | none => return breakdown

variable {e : Engine} {model size : String} {item : ItemOptions}

theorem priceRect_eq_routes (e : Engine) (model : String) (item : ItemOptions) (size : String) :
    e.priceRect model item size =
      fromMeasure (Size.ofText? size) >>= fun d ↦ e.product model >>= fun product ↦
        e.panelled? model product d item.withDamper >>= fun panelled ↦
          match panelled with
          | some breakdown => .ok breakdown
          | none => e.priceTabulated model product item d size := by
  unfold priceRect panelled? priceTabulated
  refine bind_congr fun d ↦ bind_congr fun product ↦ ?_
  cases e.overrides.familyOf? model with
  | none => rfl
  | some family => rfl

/-- A rectangle that has a price has it by one of the routes. -/
theorem priceRect_eq_ok_iff {b : PriceBreakdown} :
    e.priceRect model item size = .ok b ↔
      ∃ d product, Size.ofText? size = .ok d ∧ e.product model = .ok product ∧
        (e.panelled? model product d item.withDamper = .ok (some b) ∨
          e.panelled? model product d item.withDamper = .ok none ∧
            e.priceTabulated model product item d size = .ok b) := by
  rw [priceRect_eq_routes]
  constructor
  · intro h
    obtain ⟨d, hd, h⟩ := bind_eq_ok_iff.1 h
    obtain ⟨product, hproduct, h⟩ := bind_eq_ok_iff.1 h
    obtain ⟨panelled, hpanelled, h⟩ := bind_eq_ok_iff.1 h
    refine ⟨d, product, fromMeasure_eq_ok_iff.1 hd, hproduct, ?_⟩
    cases panelled with
    | some breakdown =>
      obtain rfl := Except.ok.inj h
      exact .inl hpanelled
    | none => exact .inr ⟨hpanelled, h⟩
  · rintro ⟨d, product, hd, hproduct, hpanelled | ⟨hpanelled, h⟩⟩
    · rw [hd, fromMeasure_ok, ok_bind, hproduct, ok_bind, hpanelled, ok_bind]
    · rw [hd, fromMeasure_ok, ok_bind, hproduct, ok_bind, hpanelled, ok_bind]
      exact h

/-- Only an item beyond the limits of a panel is priced from panels. -/
theorem isOversized_of_panelled? {product : Product} {d : Dimensions Float} {withDamper : Bool}
    {b : PriceBreakdown} (h : e.panelled? model product d withDamper = .ok (some b)) :
    ∃ family, e.overrides.familyOf? model = some family ∧ family.isOversized d = true := by
  unfold panelled? at h
  cases hfamily : e.overrides.familyOf? model with
  | none =>
    rw [hfamily] at h
    cases h
  | some family =>
    rw [hfamily] at h
    refine ⟨family, rfl, ?_⟩
    cases hsize : family.isOversized d with
    | true => rfl
    | false =>
      simp only [HandGearFamily.priceOversized?, hsize, Bool.not_false, if_true] at h
      cases h

end Ventilation.Engine
