import Ventilation.Pricing.Engine
import Ventilation.Proofs.Formula.Coincidence
import Ventilation.Proofs.Pricing.Refusal

/-!
# Prices of sizes that coincide

A price does not depend on the sign of a zero in its size: lookups compare, modifiers work on
numbers that coincide, and the last rounding makes these one price.
-/

set_option autoImplicit false
set_option relaxedAutoImplicit false

namespace Ventilation

open Binary64 Formula

variable {x x' y y' : Float} {a b : Context}

/-! ### Modifiers -/

namespace Modifier

theorem apply_coincide (h : CoincidentContexts a b) (modifier : String) (hx : Coincide x x') :
    Coincide (apply modifier x a) (apply modifier x' b) := by
  unfold apply
  cases number? modifier with
  | some factor => exact hx.mul (.refl factor)
  | none =>
    refine .ite Iff.rfl ?_ hx
    have hvalue := evaluateText_corresponds h modifier
    generalize evaluateText modifier a = value at hvalue ⊢
    generalize evaluateText modifier b = value' at hvalue ⊢
    cases hvalue with
    | error e => exact hx
    | ok h => exact h

theorem applyIfAny_coincide (h : CoincidentContexts a b) (modifier : Option String)
    (hx : Coincide x x') : Coincide (applyIfAny modifier x a) (applyIfAny modifier x' b) := by
  cases modifier with
  | none => exact hx
  | some text => exact apply_coincide h text hx

end Modifier

/-! ### The chain -/

theorem wholePrice_of_zero (h : (x == 0) = true) : wholePrice x = .ok (roundHalfUp x) := by
  have hzero : Coincide x 0 := .inr h
  have hfinite : x.isFinite = true := hzero.isFinite_eq.trans (by decide +kernel)
  have hlow : ¬ x < 0 := (hzero.lt_iff_lt (.refl 0)).not.2 (by decide +kernel)
  have hhigh : ¬ 9223372036854775808 ≤ x :=
    ((Coincide.refl _).le_iff_le hzero).not.2 (by decide +kernel)
  exact wholePrice_of_not_isRefused (by simp [IsRefused, hfinite, hlow, hhigh])

theorem wholePrice_eq_of_coincide (hx : Coincide x x') : wholePrice x = wholePrice x' := by
  rcases hx.eq_or_zero with rfl | ⟨hzero, hzero'⟩
  · rfl
  · rw [wholePrice_of_zero hzero, wholePrice_of_zero hzero']
    exact congrArg Except.ok (((hx.add (.refl 0.5)).toWhole .down).toIntWithin_eq _ _)

/-- The same price, whatever the amounts on the way. -/
def SamePrice (b b' : PriceBreakdown) : Prop := b.price = b'.price

namespace ChainInput

variable {tb tb' wd wd' : Option Float} {size size' : PricedSize}
  {price? price'? : String → Option Float}

theorem applyFinish_coincide (input : ChainInput) (h : CoincidentContexts a b)
    (hx : Coincide x x') : Coincide (input.applyFinish x a) (input.applyFinish x' b) := by
  have hbindings : CoincidentVariables ((a.bindings.set "BP" x).set "MWD" x)
      ((b.bindings.set "BP" x').set "MWD" x') :=
    (h.binding.set "BP" hx).set "MWD" hx
  have hslot (finish : Finish) : Coincide
      (Modifier.applyIfAny (input.product.finishMultiplier? finish) x
        { a with bindings := (a.bindings.set "BP" x).set "MWD" x })
      (Modifier.applyIfAny (input.product.finishMultiplier? finish) x'
        { b with bindings := (b.bindings.set "BP" x').set "MWD" x' }) :=
    Modifier.applyIfAny_coincide (.of_bindings hbindings h.price) _ hx
  unfold applyFinish
  cases input.finish with
  | none => exact hx
  | some finish =>
    cases finish with
    | specialColor => exact hx.mul (.refl _)
    | none | anodized | powderCoated color | other name => exact hslot _

theorem getD_coincide {v v' : Option Float} (h : Option.Rel Coincide v v') :
    Coincide (v.getD 0) (v'.getD 0) := by
  cases h with
  | none => exact .refl 0
  | some h => exact h

theorem finished_coincide (input : ChainInput) (htb : Option.Rel Coincide tb tb')
    (hwd : Option.Rel Coincide wd wd') (hsize : CoincidentVariables size.bindings size'.bindings)
    (hprice : ∀ model, Option.Rel Coincide (price? model) (price'? model)) :
    Coincide (input.stages tb wd size price?).finished
      (input.stages tb' wd' size' price'?).finished := by
  have htb := getD_coincide htb
  have hwd := getD_coincide hwd
  have htabulated := (hsize.set "TB" htb).set "WD" hwd
  have hbp := Modifier.applyIfAny_coincide (.of_bindings htabulated hprice)
    input.product.tbModifier? htb
  have hwithBase := htabulated.set "BP" hbp
  have hmwd := Modifier.applyIfAny_coincide (.of_bindings hwithBase hprice)
    input.product.wdModifier? hwd
  have hcontext := CoincidentContexts.of_bindings (hwithBase.set "MWD" hmwd) hprice
  exact input.applyFinish_coincide hcontext (.ite Iff.rfl
    (Modifier.applyIfAny_coincide hcontext input.product.wdModifier? hmwd) hbp)

theorem run_corresponds (input : ChainInput) (htb : Option.Rel Coincide tb tb')
    (hwd : Option.Rel Coincide wd wd') (hsize : CoincidentVariables size.bindings size'.bindings)
    (hprice : ∀ model, Option.Rel Coincide (price? model) (price'? model)) :
    Corresponds SamePrice (input.run tb wd size price?) (input.run tb' wd' size' price'?) := by
  have hfinished := wholePrice_eq_of_coincide (input.finished_coincide htb hwd hsize hprice)
  exact (Corresponds.of_eq (fun _ ↦ Eq.refl _) hfinished).map fun _ _ h ↦ h

end ChainInput

/-! ### Texts and lookups -/

theorem Size.inchesText_eq_of_coincide (hx : Coincide x x') :
    Size.inchesText x = Size.inchesText x' := by
  rcases hx.eq_or_zero with rfl | ⟨hzero, hzero'⟩
  · rfl
  · have hwhole {z : Float} (hz : (z == 0) = true) : (fract z == 0) = true := by
      have hfract := Coincide.fract (.inr hz : Coincide z 0)
      rw [hfract.beq_eq_beq (.refl 0)]
      decide +kernel
    unfold Size.inchesText
    rw [if_pos (hwhole hzero), if_pos (hwhole hzero')]
    unfold toInt64
    rw [hx.toIntWithin_eq]

theorem Size.rectText_eq_of_coincide (hx : Coincide x x') (hy : Coincide y y') :
    Size.rectText x y = Size.rectText x' y' := by
  unfold Size.rectText
  rw [inchesText_eq_of_coincide hx, inchesText_eq_of_coincide hy]

theorem overshoot_coincide (hx : Coincide x x') (hy : Coincide y y') (size : Float × Float) :
    Coincide (overshoot x y size) (overshoot x' y' size) := by
  refine .ite ?_ (.refl _) (((Coincide.refl _).sub hx).add ((Coincide.refl _).sub hy))
  exact Bool.eq_iff_iff.1 (congrArg₂ (· && ·) ((Coincide.refl _).beq_eq_beq hx)
    ((Coincide.refl _).beq_eq_beq hy))

theorem fitsBetter_eq_of_coincide (hx : Coincide x x') (hy : Coincide y y') :
    fitsBetter x y = fitsBetter x' y' := by
  funext first second
  have hfirst := overshoot_coincide hx hy first
  have hsecond := overshoot_coincide hx hy second
  exact congrArg₂ (· || ·) (decide_eq_decide.2 (hfirst.lt_iff_lt hsecond))
    (congrArg (· && _) (hfirst.beq_eq_beq hsecond))

theorem roundUpSize?_eq_of_coincide (sizes : List (Float × Float)) (hx : Coincide x x')
    (hy : Coincide y y') : roundUpSize? sizes x y = roundUpSize? sizes x' y' := by
  unfold roundUpSize?
  rw [fitsBetter_eq_of_coincide hx hy]
  congr 1
  refine List.filter_congr fun size _ ↦ ?_
  exact congrArg₂ (· && ·) (decide_eq_decide.2 (hx.le_iff_le (.refl _)))
    (decide_eq_decide.2 (hy.le_iff_le (.refl _)))

theorem roundUpValue?_eq_of_coincide (values : List Float) (hx : Coincide x x') :
    roundUpValue? values x = roundUpValue? values x' := by
  unfold roundUpValue?
  congr 1
  exact List.filter_congr fun value _ ↦ decide_eq_decide.2 (hx.le_iff_le (.refl value))

namespace Catalog

theorem isAt_eq_of_coincide (column : Option Float) (hx : Coincide x x') :
    isAt column x = isAt column x' := by
  cases column with
  | none => rfl
  | some value => exact (Coincide.refl value).beq_eq_beq hx

theorem priceAt?_eq_of_coincide (c : Catalog Float) (tableId : ℤ) (hx : Coincide x x')
    (hy : Coincide y y') : c.priceAt? tableId x y = c.priceAt? tableId x' y' := by
  have hfound (rows : List (PriceRow Float)) :
      (rows.filter fun row ↦ isAt row.height x && isAt row.width y) =
        rows.filter fun row ↦ isAt row.height x' && isAt row.width y' :=
    List.filter_congr fun row _ ↦
      congrArg₂ (· && ·) (isAt_eq_of_coincide _ hx) (isAt_eq_of_coincide _ hy)
  unfold priceAt?
  simp only [hfound]

/-- The prices of other models at a rectangle. -/
theorem referencePrice?_rect_eq_of_coincide (c : Catalog Float) (hx : Coincide x x')
    (hy : Coincide y y') : c.referencePrice? (.rect x y) = c.referencePrice? (.rect x' y') := by
  funext model
  unfold referencePrice?
  cases c.product? model with
  | error error => rfl
  | ok found =>
    cases found with
    | none => rfl
    | some product => simp only [c.priceAt?_eq_of_coincide product.tableId hy hx]

end Catalog

namespace Engine

variable {e : Engine}

theorem roundRect?_eq_of_coincide (model : String) (hx : Coincide x x') (hy : Coincide y y') :
    e.roundRect? model x y = e.roundRect? model x' y' := by
  unfold roundRect?
  simp only [roundUpSize?_eq_of_coincide _ hx hy]

theorem roundFoot?_eq_of_coincide (model : String) (hx : Coincide x x') :
    e.roundFoot? model x = e.roundFoot? model x' := by
  have htrunc : Coincide (trunc x) (trunc x') := hx.toWhole .towardZero
  unfold roundFoot?
  simp only [roundUpValue?_eq_of_coincide _ htrunc]

theorem rel_isNone_iff {v v' : Option Float} (h : Option.Rel Coincide v v') :
    v.isNone = true ↔ v'.isNone = true := by
  cases h <;> exact Iff.rfl

theorem base?_rel {price price' : TablePrice Float} (withDamper : Bool)
    (htb : Option.Rel Coincide price.tb price'.tb) (hwd : Option.Rel Coincide price.wd price'.wd) :
    Option.Rel Coincide (price.base? withDamper) (price'.base? withDamper) := by
  cases withDamper with
  | false => exact htb
  | true => exact hwd

theorem chain_corresponds (product : Product) (item : ItemOptions) {price price' : TablePrice Float}
    {size size' : PricedSize} (label : String) (htb : Option.Rel Coincide price.tb price'.tb)
    (hwd : Option.Rel Coincide price.wd price'.wd)
    (hsize : CoincidentVariables size.bindings size'.bindings)
    (hprice : e.catalog.referencePrice? size = e.catalog.referencePrice? size') :
    Corresponds SamePrice (e.chain product item price size label)
      (e.chain product item price' size' label) := by
  have hreference (model : String) : Option.Rel Coincide (e.catalog.referencePrice? size model)
      (e.catalog.referencePrice? size' model) := by
    rw [hprice]
    cases e.catalog.referencePrice? size' model with
    | none => exact .none
    | some value => exact .some (.refl value)
  exact .ite (rel_isNone_iff (base?_rel item.withDamper htb hwd)) (.error _)
    (.ite Iff.rfl (.error _) (ChainInput.run_corresponds _ htb hwd hsize hreference))

theorem priceFoot_corresponds (model : String) (item : ItemOptions) (side : Float)
    (hx : Coincide x x') :
    Corresponds SamePrice (e.priceFoot model item side x) (e.priceFoot model item side x') := by
  have hbindings : CoincidentVariables (PricedSize.rect side x).bindings
      (PricedSize.rect side x').bindings :=
    (CoincidentVariables.refl _).set "HEIGHT" hx
  unfold priceFoot
  rw [Size.rectText_eq_of_coincide hx (.refl side)]
  refine .bind_right _ fun product ↦ .bind_right _ fun found ↦ .bind_right _ fun rate ↦ ?_
  have hprice : Coincide (x / 12 * rate) (x' / 12 * rate) := (hx.div 12).mul (.refl rate)
  exact chain_corresponds product item _ (.some hprice) (.some hprice) hbindings
    (e.catalog.referencePrice?_rect_eq_of_coincide (.refl side) hx)

end Engine

end Ventilation
