import Mathlib.Data.List.Basic
import Ventilation.Pricing.Engine
import Ventilation.Proofs.Formula.Agreement
import Ventilation.Proofs.Pricing.Answer

/-!
# What a price depends on

The price of a model depends on its product row, on its price table and the rates beyond the edges
of that, and on the price tables of the models that its slots refer to. Of a model that is referred
to only its table matters, never its slots, so a reference leads no further.
-/

set_option autoImplicit false
set_option relaxedAutoImplicit false

namespace Ventilation

/-! ### References -/

namespace Product

/-- The texts of the modifier and finish slots. -/
def modifiers (p : Product) : List String :=
  [p.tbSlot, p.wdSlot, p.anodizedSlot, p.powderCoatedSlot, p.noFinishSlot].filterMap slotText?

/-- A model stands in brackets in the formula of a slot. -/
def RefersTo (p : Product) (model : String) : Prop :=
  ∃ text ∈ p.modifiers, ∃ f, Formula.ofText? text = .ok f ∧ model ∈ f.tree.models

variable {p : Product} {text : String}

theorem mem_modifiers_of_slot {slot : Option String}
    (hslot : slot ∈ [p.tbSlot, p.wdSlot, p.anodizedSlot, p.powderCoatedSlot, p.noFinishSlot])
    (h : slotText? slot = some text) : text ∈ p.modifiers :=
  List.mem_filterMap.2 ⟨slot, hslot, h⟩

theorem mem_modifiers_of_tb (h : p.tbModifier? = some text) : text ∈ p.modifiers :=
  mem_modifiers_of_slot (by simp) h

theorem mem_modifiers_of_wd (h : p.wdModifier? = some text) : text ∈ p.modifiers :=
  mem_modifiers_of_slot (by simp) h

theorem mem_modifiers_of_finish {finish : Finish} (h : p.finishMultiplier? finish = some text) :
    text ∈ p.modifiers := by
  cases finish with
  | none => exact mem_modifiers_of_slot (by simp) h
  | anodized => exact mem_modifiers_of_slot (by simp) h
  | powderCoated color => exact mem_modifiers_of_slot (by simp) h
  | specialColor => cases h
  | other name => cases h

end Product

/-! ### Catalogs that agree -/

namespace Catalog

/-- The rates of one table. -/
def ratesFor (tableId : Int) (rates : Option (List (EdgeRate Float))) :
    Option (List (EdgeRate Float)) :=
  rates.map fun rates ↦ rates.filter fun rate ↦ rate.tableId = tableId

/-- Two catalogs hold the same prices and rates for a table. -/
structure AgreesOnTable (c c' : Catalog Float) (tableId : Int) : Prop where
  rows : c.rowsOf tableId = c'.rowsOf tableId
  rowMultipliers : ratesFor tableId c.rowMultipliers = ratesFor tableId c'.rowMultipliers
  columnMultipliers : ratesFor tableId c.columnMultipliers = ratesFor tableId c'.columnMultipliers

/-- Two catalogs agree on whether a model exists, on its table and on the prices of that. -/
structure AgreesOnReference (c c' : Catalog Float) (model : String) : Prop where
  tableId : c.tableId? model = c'.tableId? model
  rows : ∀ tableId, c.tableId? model = .ok (some tableId) → c.rowsOf tableId = c'.rowsOf tableId

/-- Two catalogs agree on what the price of a model is made from. -/
structure AgreesOn (c c' : Catalog Float) (model : String) : Prop where
  product : c.product? model = c'.product? model
  table : ∀ p, c.product? model = .ok (some p) → c.AgreesOnTable c' p.tableId
  references : ∀ p, c.product? model = .ok (some p) → ∀ other, p.RefersTo other →
    c.AgreesOnReference c' other

variable {c c' : Catalog Float} {tableId : Int}

theorem priceAt?_eq_of_rows (h : c.rowsOf tableId = c'.rowsOf tableId) (height width : Float) :
    c.priceAt? tableId height width = c'.priceAt? tableId height width := by
  unfold priceAt?
  rw [h]

theorem priceAtDiameter?_eq_of_rows (h : c.rowsOf tableId = c'.rowsOf tableId) (diameter : Float) :
    c.priceAtDiameter? tableId diameter = c'.priceAtDiameter? tableId diameter := by
  unfold priceAtDiameter?
  rw [h]

theorem footRate?_eq_of_rows (h : c.rowsOf tableId = c'.rowsOf tableId) (size : Float) :
    c.footRate? tableId size = c'.footRate? tableId size := by
  unfold footRate?
  rw [h]

theorem closestPrice?_eq_of_rows (h : c.rowsOf tableId = c'.rowsOf tableId)
    (height width : Float) :
    c.closestPrice? tableId height width = c'.closestPrice? tableId height width := by
  unfold closestPrice?
  rw [h]

theorem edgeRate?_filter (rates : List (EdgeRate Float)) (tableId : Int) (within : Float → Bool) :
    edgeRate? (rates.filter fun rate ↦ rate.tableId = tableId) tableId within =
      edgeRate? rates tableId within := by
  unfold edgeRate?
  rw [List.filter_filter]
  congr 1
  refine List.filter_congr fun rate _ ↦ ?_
  cases decide (rate.tableId = tableId) <;> simp

/-- What is made of one rate of a table is the same for rates that agree on the table. -/
theorem table_bind_edgeRate?_eq {rates rates' : Option (List (EdgeRate Float))}
    (h : ratesFor tableId rates = ratesFor tableId rates') (which : CatalogTable)
    (within : Float → Bool) (next : Option (EdgeRate Float) → Answer (Option Float)) :
    (table which rates >>= fun rows ↦ next (edgeRate? rows tableId within)) =
      (table which rates' >>= fun rows ↦ next (edgeRate? rows tableId within)) := by
  cases rates with
  | none =>
    cases rates' with
    | none => rfl
    | some rows' => cases h
  | some rows =>
    cases rates' with
    | none => cases h
    | some rows' =>
      have hrows : (rows.filter fun rate ↦ rate.tableId = tableId) =
          rows'.filter fun rate ↦ rate.tableId = tableId := Option.some.inj h
      change next (edgeRate? rows tableId within) = next (edgeRate? rows' tableId within)
      rw [← edgeRate?_filter rows, ← edgeRate?_filter rows', hrows]

theorem exceededRate?_eq_of_agreesOnTable (h : c.AgreesOnTable c' tableId) (width height : Float)
    (damper : Bool) :
    c.exceededRate? tableId width height damper = c'.exceededRate? tableId width height damper := by
  have hdimensions : c.maxDimensions? tableId = c'.maxDimensions? tableId := by
    unfold maxDimensions?
    rw [h.rows]
  have hrow := table_bind_edgeRate?_eq h.rowMultipliers .rowMultipliers
  have hcolumn := table_bind_edgeRate?_eq h.columnMultipliers .columnMultipliers
  unfold exceededRate?
  rw [hdimensions]
  cases c'.maxDimensions? tableId with
  | error error => rfl
  | ok dimensions =>
    cases dimensions with
    | none => rfl
    | some dimensions =>
      obtain ⟨maxHeight, maxWidth⟩ := dimensions
      simp only [ok_bind]
      split
      · let larger (row column : Option (EdgeRate Float)) : Answer (Option Float) :=
          .ok (largerPositive? (row.bind (·.pick damper)) (column.bind (·.pick damper)))
        let all (_ : Float) := true
        calc
          _ = table .rowMultipliers c.rowMultipliers >>= fun rows ↦
              table .columnMultipliers c'.columnMultipliers >>= fun columns ↦
                larger (edgeRate? rows tableId all) (edgeRate? columns tableId all) :=
            bind_congr fun rows ↦ hcolumn all (larger (edgeRate? rows tableId all))
          _ = _ := hrow all fun row ↦
            table .columnMultipliers c'.columnMultipliers >>= fun columns ↦
              larger row (edgeRate? columns tableId all)
      · exact hcolumn _ fun column ↦ .ok (column.bind (·.pick damper))
      · exact hrow _ fun row ↦ .ok (row.bind (·.pick damper))
      · rfl

theorem rectangularPrice?_eq_of_agreesOnTable (h : c.AgreesOnTable c' tableId)
    (d : Dimensions Float) : c.rectangularPrice? tableId d = c'.rectangularPrice? tableId d := by
  unfold rectangularPrice?
  rw [exceededRate?_eq_of_agreesOnTable h, exceededRate?_eq_of_agreesOnTable h,
    priceAt?_eq_of_rows h.rows]

/-- A reference is priced by the table of its model and by nothing else of it. -/
theorem referencePrice?_of_tableId? (c : Catalog Float) (size : PricedSize) (model : String) :
    c.referencePrice? size model =
      match c.tableId? model with
      | .ok (some tableId) =>
        match (match size with
          | .rect width height => c.priceAt? tableId height width
          | .diameter inches => c.priceAtDiameter? tableId inches
          | .length _ | .none => .ok none) with
        | .ok price => price.bind TablePrice.tb
        | .error _ => none
      | _ => none := by
  unfold referencePrice? tableId?
  cases c.product? model with
  | error error => rfl
  | ok found =>
    cases found with
    | none => rfl
    | some product => rfl

theorem referencePrice?_eq_of_agreesOnReference {model : String}
    (h : c.AgreesOnReference c' model) (size : PricedSize) :
    c.referencePrice? size model = c'.referencePrice? size model := by
  rw [referencePrice?_of_tableId?, referencePrice?_of_tableId?, ← h.tableId]
  cases hfound : c.tableId? model with
  | error error => rfl
  | ok found =>
    cases found with
    | none => rfl
    | some tableId =>
      have hrows := h.rows tableId hfound
      cases size with
      | rect width height => simp only [priceAt?_eq_of_rows hrows]
      | diameter inches => simp only [priceAtDiameter?_eq_of_rows hrows]
      | length inches => rfl
      | none => rfl

end Catalog

/-! ### The chain -/

section

variable {price? other? : String → Option Float}

theorem Modifier.apply_eq_of_price {text : String} {base : Float} {bindings : Variables}
    (h : ∀ f, Formula.ofText? text = .ok f → ∀ model ∈ f.tree.models, price? model = other? model) :
    apply text base ⟨bindings, price?⟩ = apply text base ⟨bindings, other?⟩ := by
  unfold apply
  rw [Formula.evaluateText_eq_of_price h]

variable {p : Product}

theorem Modifier.applyIfAny_eq_of_price
    (h : ∀ model, p.RefersTo model → price? model = other? model) {slot : Option String}
    (hslot : ∀ text, slot = some text → text ∈ p.modifiers) (base : Float)
    (bindings : Variables) :
    applyIfAny slot base ⟨bindings, price?⟩ = applyIfAny slot base ⟨bindings, other?⟩ := by
  cases slot with
  | none => rfl
  | some text =>
    exact apply_eq_of_price fun f hf model hmodel ↦ h model ⟨text, hslot text rfl, f, hf, hmodel⟩

theorem ChainInput.applyFinish_eq_of_price (input : ChainInput)
    (h : ∀ model, input.product.RefersTo model → price? model = other? model) (base : Float)
    (bindings : Variables) :
    input.applyFinish base ⟨bindings, price?⟩ = input.applyFinish base ⟨bindings, other?⟩ := by
  have hfinish : ∀ finish bindings,
      Modifier.applyIfAny (input.product.finishMultiplier? finish) base ⟨bindings, price?⟩ =
        Modifier.applyIfAny (input.product.finishMultiplier? finish) base ⟨bindings, other?⟩ :=
    fun finish ↦ Modifier.applyIfAny_eq_of_price h (fun _ ↦ Product.mem_modifiers_of_finish) base
  unfold applyFinish
  split
  · rfl
  · rfl
  · exact hfinish _ _

theorem ChainInput.stages_eq_of_price (input : ChainInput)
    (h : ∀ model, input.product.RefersTo model → price? model = other? model)
    (tb wd : Option Float) (size : PricedSize) :
    input.stages tb wd size price? = input.stages tb wd size other? := by
  have htb := Modifier.applyIfAny_eq_of_price h fun _ ↦ Product.mem_modifiers_of_tb
  have hwd := Modifier.applyIfAny_eq_of_price h fun _ ↦ Product.mem_modifiers_of_wd
  unfold stages
  simp only [htb, hwd, input.applyFinish_eq_of_price h]

end

/-! ### Prices -/

theorem HandGearFamily.priceOversized?_eq_of_rows (f : HandGearFamily Float)
    {c c' : Catalog Float} {product : Product}
    (h : c.rowsOf product.tableId = c'.rowsOf product.tableId) (d : Dimensions Float)
    (withDamper : Bool) :
    f.priceOversized? c product d withDamper = f.priceOversized? c' product d withDamper := by
  have hpanel : f.panelPrice? c product.tableId d = f.panelPrice? c' product.tableId d := by
    unfold panelPrice?
    simp only [Catalog.priceAt?_eq_of_rows h, Catalog.closestPrice?_eq_of_rows h]
  unfold priceOversized?
  rw [hpanel]

namespace Engine

variable {options : EngineOptions} {overrides : OverrideRegistry} {c c' : Catalog Float}
  {model : String}

theorem product?_of_product {e : Engine} {product : Product} (h : e.product model = .ok product) :
    e.catalog.product? model = .ok (some product) := by
  obtain ⟨found, hfound, h⟩ := bind_eq_ok_iff.1 h
  cases found with
  | none => cases h
  | some p =>
    cases h
    exact fromCatalog_eq_ok_iff.1 hfound

theorem chain_eq_of_agreesOn (h : c.AgreesOn c' model) {product : Product}
    (hproduct : c.product? model = .ok (some product)) (item : ItemOptions)
    (price : TablePrice Float) (size : PricedSize) (label : String) :
    (⟨c, options, overrides⟩ : Engine).chain product item price size label =
      (⟨c', options, overrides⟩ : Engine).chain product item price size label := by
  have hprice : ∀ other, product.RefersTo other →
      c.referencePrice? size other = c'.referencePrice? size other := by
    intro other hother
    have hagree := h.references product hproduct other hother
    exact Catalog.referencePrice?_eq_of_agreesOnReference hagree size
  have hrun : ∀ finish withDamper multiplier,
      (⟨product, finish, withDamper, multiplier⟩ : ChainInput).run price.tb price.wd size
        (c.referencePrice? size) =
      (⟨product, finish, withDamper, multiplier⟩ : ChainInput).run price.tb price.wd size
        (c'.referencePrice? size) := by
    intro finish withDamper multiplier
    unfold ChainInput.run
    rw [ChainInput.stages_eq_of_price _ hprice]
  unfold chain
  simp only [hrun]

/-- Whatever is made of the product of a model and of nothing else that catalogs may differ in is
the same. -/
theorem product_bind_eq_of_agreesOn (h : c.AgreesOn c' model)
    {next next' : Product → Except PricingError PriceBreakdown}
    (hnext : ∀ product, c.product? model = .ok (some product) → next product = next' product) :
    ((⟨c, options, overrides⟩ : Engine).product model >>= next) =
      ((⟨c', options, overrides⟩ : Engine).product model >>= next') := by
  have hsame : (⟨c', options, overrides⟩ : Engine).product model =
      (⟨c, options, overrides⟩ : Engine).product model := by
    unfold Engine.product
    rw [h.product]
  rw [hsame]
  cases hproduct : (⟨c, options, overrides⟩ : Engine).product model with
  | error error => rfl
  | ok product => exact hnext product (product?_of_product hproduct)

theorem priceRect_eq_of_agreesOn (h : c.AgreesOn c' model) (item : ItemOptions) (size : String) :
    priceRect ⟨c, options, overrides⟩ model item size =
      priceRect ⟨c', options, overrides⟩ model item size := by
  unfold priceRect
  refine bind_congr fun d ↦ product_bind_eq_of_agreesOn h fun product hproduct ↦ ?_
  have htable := h.table product hproduct
  simp only [Catalog.rectangularPrice?_eq_of_agreesOnTable htable, chain_eq_of_agreesOn h hproduct,
    HandGearFamily.priceOversized?_eq_of_rows _ htable.rows]

theorem priceDiameter_eq_of_agreesOn (h : c.AgreesOn c' model) (item : ItemOptions)
    (size : String) :
    priceDiameter ⟨c, options, overrides⟩ model item size =
      priceDiameter ⟨c', options, overrides⟩ model item size := by
  unfold priceDiameter
  refine bind_congr fun d ↦ product_bind_eq_of_agreesOn h fun product hproduct ↦ ?_
  simp only [Catalog.priceAtDiameter?_eq_of_rows (h.table product hproduct).rows,
    chain_eq_of_agreesOn h hproduct]

theorem priceFoot_eq_of_agreesOn (h : c.AgreesOn c' model) (item : ItemOptions)
    (side length : Float) :
    priceFoot ⟨c, options, overrides⟩ model item side length =
      priceFoot ⟨c', options, overrides⟩ model item side length := by
  unfold priceFoot
  refine product_bind_eq_of_agreesOn h fun product hproduct ↦ ?_
  simp only [Catalog.footRate?_eq_of_rows (h.table product hproduct).rows,
    chain_eq_of_agreesOn h hproduct]

/-- An engine prices a model alike over two catalogs that agree on what its price is made from. A
model that is referred to has the same price wherever its table is the same, whatever its slots
hold. -/
theorem prices_eq_of_agreesOn (options : EngineOptions) (overrides : OverrideRegistry)
    (c c' : Catalog Float) (model : String) (h : c.AgreesOn c' model) :
    (∀ item size, priceRect ⟨c, options, overrides⟩ model item size =
      priceRect ⟨c', options, overrides⟩ model item size) ∧
    (∀ item size, priceDiameter ⟨c, options, overrides⟩ model item size =
      priceDiameter ⟨c', options, overrides⟩ model item size) ∧
    (∀ item side length, priceFoot ⟨c, options, overrides⟩ model item side length =
      priceFoot ⟨c', options, overrides⟩ model item side length) ∧
    ∀ other, c.AgreesOnReference c' other → ∀ size,
      c.referencePrice? size other = c'.referencePrice? size other :=
  ⟨priceRect_eq_of_agreesOn h, priceDiameter_eq_of_agreesOn h, priceFoot_eq_of_agreesOn h,
    fun _ ↦ Catalog.referencePrice?_eq_of_agreesOnReference⟩

/-- Model "M" adds the price of "R", which has a modifier of its own, `slot`, and whose table has a
rate beyond its edges, `rate`. -/
def referring (slot : Option String) (rate : Float) : Catalog Float where
  products := some [⟨1, 1, "M", some "[R] + TB", none, none, none, none⟩,
    ⟨2, 2, "R", slot, none, none, none, none⟩]
  prices := some [⟨1, 1, some 10, some 10, some 7, none, none⟩,
    ⟨2, 2, some 10, some 10, some 5, none, none⟩]
  rowMultipliers := some [⟨2, 10, some rate, none⟩]
  columnMultipliers := none

theorem tableId?_referring (slot slot' : Option String) (rate rate' : Float) (model : String) :
    (referring slot rate).tableId? model = (referring slot' rate').tableId? model := by
  unfold Catalog.tableId? Catalog.product? Catalog.productRows referring
  simp only [Catalog.table, Except.map, List.find?_cons]
  cases decide ("M" = model)
  · cases decide ("R" = model)
    · rfl
    · rfl
  · rfl

theorem agreesOn_referring (slot slot' : Option String) (rate rate' : Float) :
    (referring slot rate).AgreesOn (referring slot' rate') "M" where
  product := rfl
  table := by
    intro p hp
    cases hp
    exact ⟨rfl, rfl, rfl⟩
  references := by
    intro p _ other _
    exact ⟨tableId?_referring slot slot' rate rate' other, fun _ _ ↦ rfl⟩

/-- The price of "M" adds 5 for "R", not the 50 that "R" itself is sold for. -/
theorem prices_eq_of_agreesOn_sample :
    priceRect ⟨referring (some "10") 2, .standard, .empty⟩ "M" .standard "10\" x 10\"" =
      priceRect ⟨referring none 3, .standard, .empty⟩ "M" .standard "10\" x 10\"" ∧
    (priceRect ⟨referring none 3, .standard, .empty⟩ "M" .standard "10\" x 10\"").toOption.map
      PriceBreakdown.price = some 12 :=
  ⟨(prices_eq_of_agreesOn .standard .empty _ _ "M" (agreesOn_referring (some "10") none 2 3)).1 _ _,
    by decide +kernel⟩

end Engine

end Ventilation
