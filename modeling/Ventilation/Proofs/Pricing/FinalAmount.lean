import Mathlib.Tactic.Basic
import Ventilation.Proofs.Pricing.WholePrice

/-!
# The amount before the last rounding

An item has a final amount: what the chain makes of its table price, with the price of its gear
cells on top, or what its panels cost with theirs. Every call that prices an item fails before it
has this amount, or rounds it. So an amount that is no price is refused on every route.
-/

set_option autoImplicit false
set_option relaxedAutoImplicit false

namespace Ventilation

/-- The calls that price an item, by the size that they take. -/
inductive PriceCall where
  | rect (size : String)
  | diameter (size : String)
  | foot (side length : Float)
  | dimensionless (length : Option Float)

/-! ### Final amounts -/

/-- What an item beyond the panel limits costs before the last rounding, if its panels have a
price. -/
def HandGearFamily.panelAmount? (f : HandGearFamily Float) (catalog : Catalog Float)
    (product : Product) (d : Dimensions Float) (withDamper : Bool) :
    Except PricingError (Option Float) :=
  if f.isOversized d then
    (fromCatalog (f.panelPrice? catalog product.tableId d)).map fun panel ↦
      (panel.bind fun panel ↦ panel.eitherBase? withDamper).map fun base ↦
        base * ((f.panels d).1 * (f.panels d).2) + f.surcharge d
  else .ok none

namespace Engine

/-- The amount after the finish. -/
def chainAmount (e : Engine) (product : Product) (item : ItemOptions) (price : TablePrice Float)
    (size : PricedSize) (label : String) : Except PricingError Float :=
  if (price.base? item.withDamper).isNone then .error (.priceNotFound product.model label)
  else
    let multiplier := item.specialColorMultiplier.getD e.options.specialColorMultiplier
    if !multiplier.isFinite || multiplier ≤ 0 then .error (.invalidMultiplier multiplier)
    else
      let input : ChainInput := ⟨product, item.finish, item.withDamper, multiplier⟩
      .ok (input.stages price.tb price.wd size (e.catalog.referencePrice? size)).finished

/-- The price from the table with the gear cells of a model of a family; the price before these is a
whole one. -/
def tabulatedAmount (e : Engine) (model : String) (product : Product) (item : ItemOptions)
    (d : Dimensions Float) (size : String) : Except PricingError Float := do
  let found ← fromCatalog (e.catalog.rectangularPrice? product.tableId d)
  let price ← required model size found
  let amount ← e.chainAmount product item price (.rect d.width d.height) size
  match e.overrides.familyOf? model with
  | some family => (wholePrice amount).map fun price ↦ Binary64.ofInt price + family.surcharge d
  | none => return amount

/-- The amount from panels, for a model of a family. -/
def panelAmount? (e : Engine) (model : String) (product : Product) (d : Dimensions Float)
    (withDamper : Bool) : Except PricingError (Option Float) :=
  match e.overrides.familyOf? model with
  | some family => family.panelAmount? e.catalog product d withDamper
  | none => .ok none

/-- The price of an item. -/
def answer (e : Engine) (model : String) (item : ItemOptions) :
    PriceCall → Except PricingError PriceBreakdown
  | .rect size => e.priceRect model item size
  | .diameter size => e.priceDiameter model item size
  | .foot side length => e.priceFoot model item side length
  | .dimensionless length => e.priceDimensionless model item length

/-- The amount that the price of an item is the rounding of. -/
def finalAmount (e : Engine) (model : String) (item : ItemOptions) :
    PriceCall → Except PricingError Float
  | .rect size => do
    let d ← fromMeasure (Size.ofText? size)
    let product ← e.product model
    match ← e.panelAmount? model product d item.withDamper with
    | some amount => return amount
    | none => e.tabulatedAmount model product item d size
  | .diameter size => do
    let diameter ← fromMeasure (Size.diameterOfText? size)
    let product ← e.product model
    let found ← fromCatalog (e.catalog.priceAtDiameter? product.tableId diameter)
    let price ← required model size found
    e.chainAmount product item price (.diameter diameter) size
  | .foot side length => do
    let product ← e.product model
    let label := Size.rectText length side
    let found ← fromCatalog (e.catalog.footRate? product.tableId (Binary64.trunc side))
    let rate ← required model label found
    e.chainAmount product item (linearPrice length rate) (.rect side length) label
  | .dimensionless length => do
    let product ← e.product model
    let found ← fromCatalog (e.catalog.dimensionlessPriceId? model)
    let priceId ← required model noDimensions found
    match ← fromCatalog (e.catalog.footRateById? priceId) with
    | some rate =>
      match length with
      | some length =>
        e.chainAmount product item (linearPrice length rate) (.length length)
          (Size.inchesText length)
      | none => .error (.measure (.dimension ("length required for " ++ model)))
    | none => do
      let row ← fromCatalog (e.catalog.priceRow? priceId)
      let price ← required model noDimensions (row.bind PriceRow.tablePrice?)
      e.chainAmount product item price .none noDimensions

end Engine

/-! ### The last rounding -/

/-- The price of a breakdown is the rounding of an amount, or both fail alike. -/
def Rounds (answer : Except PricingError PriceBreakdown) (amount : Except PricingError Float) :
    Prop :=
  answer.map PriceBreakdown.price = amount >>= wholePrice

namespace Rounds

variable {answer : Except PricingError PriceBreakdown} {amount : Except PricingError Float}

theorem bind {α : Type} (x : Except PricingError α) {f : α → Except PricingError PriceBreakdown}
    {g : α → Except PricingError Float} (h : ∀ a, Rounds (f a) (g a)) :
    Rounds (x >>= f) (x >>= g) := by
  cases x with
  | error error => exact rfl
  | ok a => exact h a

theorem error (error : PricingError) : Rounds (.error error) (.error error) := rfl

/-- An amount that is rounded last. -/
theorem of_wholePrice (amount : Float) {breakdown : ℤ → PriceBreakdown}
    (h : ∀ price, (breakdown price).price = price) :
    Rounds ((wholePrice amount).map breakdown) (.ok amount) := by
  unfold Rounds
  rw [ok_bind]
  cases wholePrice amount with
  | error error => rfl
  | ok price => exact congrArg Except.ok (h price)

theorem of_wholePrice_bind (amount : Float) {breakdown : ℤ → PriceBreakdown}
    {f : Option PriceBreakdown → Except PricingError PriceBreakdown}
    (h : ∀ price, (breakdown price).price = price) (hf : ∀ b, f (some b) = .ok b) :
    Rounds ((wholePrice amount >>= fun price ↦ .ok (some (breakdown price))) >>= f)
      (.ok amount) := by
  have hmap : (wholePrice amount >>= fun price ↦ .ok (some (breakdown price))) >>= f =
      (wholePrice amount).map breakdown := by
    cases wholePrice amount with
    | error error => rfl
    | ok price => exact hf _
  rw [hmap]
  exact of_wholePrice amount h

/-- A surcharge is added to the whole price, and the sum is rounded again. -/
theorem withSurcharge (h : Rounds answer amount) (surcharge : Float) :
    Rounds (answer >>= fun b ↦ b.withSurcharge surcharge)
      (amount >>= fun x ↦ (wholePrice x).map fun price ↦ Binary64.ofInt price + surcharge) := by
  have hsum (add : ℤ → Float) : (amount >>= fun x ↦ (wholePrice x).map add) =
      answer.map fun b ↦ add b.price := by
    calc (amount >>= fun x ↦ (wholePrice x).map add) = (amount >>= wholePrice).map add := by
          cases amount <;> rfl
      _ = answer.map fun b ↦ add b.price := by
          rw [← h]
          cases answer <;> rfl
  rw [hsum]
  cases answer with
  | error error => exact rfl
  | ok b => exact of_wholePrice _ fun _ ↦ rfl

/-- What fails before it has an amount has no price. -/
theorem eq_error {error : PricingError} (h : Rounds answer (.error error)) :
    answer = .error error := by
  cases answer with
  | error error' => exact congrArg Except.error (Except.error.inj h)
  | ok b => cases h

theorem eq_invalidPrice {x : Float} (h : Rounds answer (.ok x)) (hx : IsRefused x) :
    answer = .error (.invalidPrice x) := by
  have hanswer : answer.map PriceBreakdown.price = .error (.invalidPrice x) :=
    h.trans (wholePrice_of_isRefused hx)
  cases answer with
  | error error => exact congrArg Except.error (Except.error.inj hanswer)
  | ok b => cases hanswer

theorem exists_amount {b : PriceBreakdown} (h : Rounds (.ok b) amount) :
    ∃ x, amount = .ok x ∧ b.price = roundHalfUp x := by
  obtain ⟨x, hx, hprice⟩ := bind_eq_ok_iff.1 h.symm
  have hvalid : ¬ IsRefused x := by
    intro hrefused
    cases (wholePrice_of_isRefused hrefused).symm.trans hprice
  rw [wholePrice_of_not_isRefused hvalid] at hprice
  exact ⟨x, hx, (Except.ok.inj hprice).symm⟩

theorem isPrice {b : PriceBreakdown} (h : Rounds (.ok b) amount) : IsPrice b.price := by
  obtain ⟨x, -, hprice⟩ := bind_eq_ok_iff.1 h.symm
  exact isPrice_of_wholePrice hprice

end Rounds

namespace Engine

variable (e : Engine) (model : String) (item : ItemOptions)

theorem rounds_chain (product : Product) (price : TablePrice Float) (size : PricedSize)
    (label : String) :
    Rounds (e.chain product item price size label)
      (e.chainAmount product item price size label) := by
  unfold chain chainAmount
  split
  · exact .error _
  · simp only
    split
    · exact .error _
    · exact .of_wholePrice _ fun _ ↦ rfl

theorem rounds_priceTabulated (product : Product) (d : Dimensions Float) (size : String) :
    Rounds (e.priceTabulated model product item d size)
      (e.tabulatedAmount model product item d size) := by
  refine .bind _ fun found ↦ .bind _ fun price ↦ ?_
  cases e.overrides.familyOf? model with
  | none =>
    change Rounds (e.chain product item price _ size >>= pure)
      (e.chainAmount product item price _ size >>= pure)
    rw [bind_pure, bind_pure]
    exact e.rounds_chain item product price _ size
  | some family => exact (e.rounds_chain item product price _ size).withSurcharge _

section Panels

variable {f : Option PriceBreakdown → Except PricingError PriceBreakdown}
  {g : Option Float → Except PricingError Float}

/-- The price from panels is the rounding of their amount, whatever an item without it goes on
with. -/
theorem rounds_priceOversized (family : HandGearFamily Float) (catalog : Catalog Float)
    (product : Product) (d : Dimensions Float) (withDamper : Bool)
    (hf : ∀ b, f (some b) = .ok b) (hg : ∀ x, g (some x) = .ok x) (h : Rounds (f none) (g none)) :
    Rounds (family.priceOversized? catalog product d withDamper >>= f)
      (family.panelAmount? catalog product d withDamper >>= g) := by
  unfold HandGearFamily.priceOversized? HandGearFamily.panelAmount?
  cases family.isOversized d with
  | false => exact h
  | true =>
    simp only [Bool.not_true, Bool.false_eq_true, if_false, if_true]
    cases fromCatalog (family.panelPrice? catalog product.tableId d) with
    | error error => exact .error error
    | ok panel =>
      cases panel with
      | none => exact h
      | some panel =>
        simp only [ok_bind, Except.map, Option.bind_some]
        cases panel.eitherBase? withDamper with
        | none => exact h
        | some base =>
          rw [Option.map_some, hg]
          exact .of_wholePrice_bind _ (fun _ ↦ rfl) hf

theorem rounds_panelled (product : Product) (d : Dimensions Float) (withDamper : Bool)
    (hf : ∀ b, f (some b) = .ok b) (hg : ∀ x, g (some x) = .ok x) (h : Rounds (f none) (g none)) :
    Rounds (e.panelled? model product d withDamper >>= f)
      (e.panelAmount? model product d withDamper >>= g) := by
  unfold panelled? panelAmount?
  cases e.overrides.familyOf? model with
  | none => exact h
  | some family => exact rounds_priceOversized family e.catalog product d withDamper hf hg h

end Panels

theorem rounds_priceRect (size : String) :
    Rounds (e.priceRect model item size) (e.finalAmount model item (.rect size)) := by
  rw [priceRect_eq_routes]
  exact .bind _ fun d ↦ .bind _ fun product ↦
    e.rounds_panelled model product d item.withDamper (fun _ ↦ rfl) (fun _ ↦ rfl)
      (e.rounds_priceTabulated model item product d size)

/-- The price of every item is the rounding of its final amount. -/
theorem rounds_answer (call : PriceCall) :
    Rounds (e.answer model item call) (e.finalAmount model item call) := by
  cases call with
  | rect size => exact e.rounds_priceRect model item size
  | diameter size =>
    exact .bind _ fun diameter ↦ .bind _ fun product ↦ .bind _ fun found ↦ .bind _ fun price ↦
      e.rounds_chain item product price _ size
  | foot side length =>
    exact .bind _ fun product ↦ .bind _ fun found ↦ .bind _ fun rate ↦
      e.rounds_chain item product _ _ _
  | dimensionless length =>
    refine .bind _ fun product ↦ .bind _ fun found ↦ .bind _ fun priceId ↦ .bind _ fun rate ↦ ?_
    cases rate with
    | some rate =>
      cases length with
      | none => exact .error _
      | some length => exact e.rounds_chain item product _ _ _
    | none => exact .bind _ fun row ↦ .bind _ fun price ↦ e.rounds_chain item product price _ _

end Engine

end Ventilation
