import Ventilation.Proofs.Pricing.Coincidence
import Ventilation.Proofs.Quote.Line

/-!
# Turned sides

Which side of a rectangle is given as width makes no difference to its quote: the larger one is
taken as width before anything else looks at the sides, so two requests with the sides turned fail
with the same error or give the same amounts. Of sides that differ exactly one order is warned of.
Equal sides may still be the two zeros, which no price can tell apart.
-/

set_option autoImplicit false
set_option relaxedAutoImplicit false

namespace Ventilation

open Binary64

/-- The request with a rectangle of the given sides. -/
def QuoteRequest.withSides (r : QuoteRequest) (width height : Length) : QuoteRequest :=
  { r with dimensions := .rectangular width height }

namespace QuoteRequest

variable (r : QuoteRequest) (width height : Length)

theorem sides_withSides (model : String) :
    (r.withSides width height).sides model = .ok (width, height) := rfl

theorem item_withSides : (r.withSides width height).item = r.item := rfl

theorem neutralItem_withSides : (r.withSides width height).neutralItem = r.neutralItem := rfl

theorem filterName?_withSides : (r.withSides width height).filterName? = r.filterName? := rfl

end QuoteRequest

/-! ### Canonical sides -/

structure CoincidentDimensions (d d' : Dimensions Float) : Prop where
  width : Coincide d.width d'.width
  height : Coincide d.height d'.height

/-- The warnings of two lines with sides turned: the line whose width is the smaller side is the one
that is warned of. -/
def TurnedWarnings (width height : Float) (warnings warnings' : List QuoteWarning) : Prop :=
  width < height ∧ warnings = [.swapped ⟨height, width⟩] ∧ warnings' = [] ∨
    height < width ∧ warnings = [] ∧ warnings' = [.swapped ⟨width, height⟩] ∨
      (width == height) = true ∧ warnings = [] ∧ warnings' = []

theorem canonicalSides_turned {width height : Length} (hwidth : IsNumber width.toInches)
    (hheight : IsNumber height.toInches) :
    CoincidentDimensions (Engine.canonicalSides width height).1
        (Engine.canonicalSides height width).1 ∧
      TurnedWarnings width.toInches height.toInches
        (Engine.swapWarnings (Engine.canonicalSides width height).1
          (Engine.canonicalSides width height).2)
        (Engine.swapWarnings (Engine.canonicalSides height width).1
          (Engine.canonicalSides height width).2) := by
  unfold Engine.canonicalSides
  generalize width.toInches = x at hwidth ⊢
  generalize height.toInches = y at hheight ⊢
  have hlt_iff : x < y ↔ place x < place y :=
    ⟨fun h ↦ (lt_iff.1 h).2.2, fun h ↦ lt_iff.2 ⟨hwidth, hheight, h⟩⟩
  have hgt_iff : y < x ↔ place y < place x :=
    ⟨fun h ↦ (lt_iff.1 h).2.2, fun h ↦ lt_iff.2 ⟨hheight, hwidth, h⟩⟩
  simp only [Dimensions.canonicalize]
  rcases Int.lt_trichotomy (place x) (place y) with hlt | heq | hgt
  · rw [if_pos (hlt_iff.2 hlt), if_neg (hgt_iff.not.2 (by omega))]
    exact ⟨⟨.refl y, .refl x⟩, .inl ⟨hlt_iff.2 hlt, rfl, rfl⟩⟩
  · have hbeq : (x == y) = true := beq_iff.2 ⟨hwidth, hheight, heq⟩
    rw [if_neg (hlt_iff.not.2 (by omega)), if_neg (hgt_iff.not.2 (by omega))]
    exact ⟨⟨.inr hbeq, .inr (beq_comm hbeq)⟩, .inr (.inr ⟨hbeq, rfl, rfl⟩)⟩
  · rw [if_neg (hlt_iff.not.2 (by omega)), if_pos (hgt_iff.2 hgt)]
    exact ⟨⟨.refl x, .refl y⟩, .inr (.inl ⟨hgt_iff.2 hgt, rfl, rfl⟩)⟩

/-! ### Lines -/

/-- The same figures on two lines with sides turned. -/
structure PricedLine.Turned (width height : Float) (a b : PricedLine) : Prop where
  tablePrice : a.tablePrice = b.tablePrice
  priceAfterFinish : a.priceAfterFinish = b.priceAfterFinish
  filterPrice : a.filterPrice = b.filterPrice
  accessoryPrice : Coincide a.accessoryPrice b.accessoryPrice
  roundedSize : a.roundedSize = b.roundedSize
  warnings : TurnedWarnings width height a.warnings b.warnings

theorem fromPricing_corresponds {α : Type} {R : α → α → Prop} {x y : Except PricingError α}
    (h : Corresponds R x y) : Corresponds R (fromPricing x) (fromPricing y) := by
  cases h with
  | error e => exact .error _
  | ok h => exact .ok h

namespace Engine

variable {e : Engine} {r : QuoteRequest} {d d' : Dimensions Float} {width height : Length}

theorem filterPrice_eq_of_coincident (e : Engine) (r : QuoteRequest) (width height : Length)
    (hd : CoincidentDimensions d d') :
    e.filterPrice (r.withSides width height) (.rect d) =
      e.filterPrice (r.withSides height width) (.rect d') := by
  have hwidth : Coincide (trunc (Scalar.larger d.width d.height))
      (trunc (Scalar.larger d'.width d'.height)) :=
    (hd.width.larger hd.height).toWhole .towardZero
  have hheight : Coincide (trunc (Scalar.smaller d.width d.height))
      (trunc (Scalar.smaller d'.width d'.height)) :=
    (hd.width.smaller hd.height).toWhole .towardZero
  unfold filterPrice
  simp only [roundRect?_eq_of_coincide _ hwidth hheight,
    Size.rectText_eq_of_coincide hwidth hheight, QuoteRequest.filterName?_withSides]

theorem accessoryPrice_coincide (e : Engine) (r : QuoteRequest) (width height : Length)
    (hd : CoincidentDimensions d d') :
    Coincide (e.accessoryPrice (r.withSides width height) d)
      (e.accessoryPrice (r.withSides height width) d') :=
  .ite Iff.rfl (((hd.width.mul hd.height).mul (.refl _)).larger (.refl _)) (.refl 0)

theorem quoteRectangular_corresponds (e : Engine) (model : String) (r : QuoteRequest)
    (hwidth : IsNumber width.toInches) (hheight : IsNumber height.toInches) :
    Corresponds (PricedLine.Turned width.toInches height.toInches)
      (e.quoteRectangular model (r.withSides width height))
      (e.quoteRectangular model (r.withSides height width)) := by
  obtain ⟨hd, hwarnings⟩ := canonicalSides_turned hwidth hheight
  unfold quoteRectangular
  simp only [QuoteRequest.sides_withSides, ok_bind, QuoteRequest.item_withSides,
    QuoteRequest.neutralItem_withSides, roundRect?_eq_of_coincide model hd.width hd.height,
    Size.rectText_eq_of_coincide hd.width hd.height,
    e.filterPrice_eq_of_coincident r width height hd]
  exact .bind_right _ fun rounded ↦ .bind_right _ fun neutral ↦ .bind_right _ fun finished ↦
    .bind_right _ fun filter ↦
      .ok ⟨rfl, rfl, rfl, e.accessoryPrice_coincide r width height hd, rfl, hwarnings⟩

theorem quotePricePerFoot_corresponds (e : Engine) (model : String) (r : QuoteRequest)
    (hwidth : IsNumber width.toInches) (hheight : IsNumber height.toInches) :
    Corresponds (PricedLine.Turned width.toInches height.toInches)
      (e.quotePricePerFoot model (r.withSides width height))
      (e.quotePricePerFoot model (r.withSides height width)) := by
  obtain ⟨hd, hwarnings⟩ := canonicalSides_turned hwidth hheight
  have hprice (item : ItemOptions) (side : Float) :=
    fromPricing_corresponds (e.priceFoot_corresponds model item side hd.width)
  unfold quotePricePerFoot Binary64.round
  simp only [QuoteRequest.sides_withSides, ok_bind, QuoteRequest.item_withSides,
    QuoteRequest.neutralItem_withSides,
    roundFoot?_eq_of_coincide model (hd.height.toWhole .nearestAway),
    Size.inchesText_eq_of_coincide hd.height, e.filterPrice_eq_of_coincident r width height hd]
  refine .bind_right _ fun side ↦ ?_
  cases side with
  | none => exact .error _
  | some side =>
    exact (hprice _ side).bind fun neutral _ hneutral ↦
      (hprice _ side).bind fun finished _ hfinished ↦ .bind_right _ fun filter ↦
        .ok ⟨hneutral, hfinished, rfl, e.accessoryPrice_coincide r width height hd,
          congrArg some (Size.rectText_eq_of_coincide hd.width (.refl side)), hwarnings⟩

end Engine

/-! ### Quotes -/

theorem money_eq_of_coincide {x y : Float} (h : Coincide x y) : money x = money y := by
  have hmoney {z : Float} (hz : (z == 0) = true) : money z = .ok (Decimal.zero.roundTo 2) := by
    obtain ⟨negative, exponent, hparts⟩ := exists_parts_of_zero hz
    unfold money Decimal.ofFloat?
    rw [hparts]
    rfl
  rcases h.eq_or_zero with rfl | ⟨hx, hy⟩
  · rfl
  · rw [hmoney hx, hmoney hy]

/-- Equal items but for the size and the warnings, and the warnings of turned sides. -/
structure QuoteItem.Turned (width height : Float) (a b : QuoteItem) : Prop where
  same : { a with size := b.size, warnings := b.warnings } = b
  warnings : TurnedWarnings width height a.warnings b.warnings

namespace Engine

theorem quote_corresponds {e : Engine} {r : QuoteRequest} {width height : Length}
    (h : Corresponds (PricedLine.Turned width.toInches height.toInches)
      (e.priceLine (r.withSides width height)) (e.priceLine (r.withSides height width))) :
    Corresponds (QuoteItem.Turned width.toInches height.toInches)
      (e.quote (r.withSides width height)) (e.quote (r.withSides height width)) := by
  unfold quote
  refine h.bind fun a b hab ↦ ?_
  rw [hab.filterPrice, hab.priceAfterFinish, money_eq_of_coincide hab.accessoryPrice]
  refine .bind_right _ fun filterPrice ↦ .bind_right _ fun withFilter ↦
    .bind_right _ fun accessoryPrice ↦ .bind_right _ fun unitPrice ↦ .bind_right _ fun factor ↦
      .bind_right _ fun discounted ↦ .bind_right _ fun total ↦ .ok ⟨?_, hab.warnings⟩
  simp only [hab.tablePrice, hab.roundedSize]
  rfl

/-- A model priced by width and height, or by a side and its length. -/
def HasSides (e : Engine) (model : String) : Prop :=
  e.shape model = .ok .rectangular ∨ e.shape model = .ok .pricePerFoot

/-- The order in which width and height are given does not change a quote. Both orders fail with the
same error or give items that are equal but for size and warnings; if the sides differ, exactly one
of the items warns that they were turned, and names the larger one as width. -/
theorem quote_turned (e : Engine) (r : QuoteRequest)
    (hmodel : e.HasSides (Text.trimmed r.code.model)) (width height : Length)
    (hwidth : IsNumber width.toInches) (hheight : IsNumber height.toInches) :
    Corresponds (QuoteItem.Turned width.toInches height.toInches)
      (e.quote (r.withSides width height)) (e.quote (r.withSides height width)) := by
  apply quote_corresponds
  rcases hmodel with hshape | hshape
  · have hline (width height : Length) : e.priceLine (r.withSides width height) =
        e.quoteRectangular (Text.trimmed r.code.model) (r.withSides width height) :=
      priceLine_eq_lineOfShape (r := r.withSides width height) hshape
    rw [hline, hline]
    exact e.quoteRectangular_corresponds _ r hwidth hheight
  · have hline (width height : Length) : e.priceLine (r.withSides width height) =
        e.quotePricePerFoot (Text.trimmed r.code.model) (r.withSides width height) :=
      priceLine_eq_lineOfShape (r := r.withSides width height) hshape
    rw [hline, hline]
    exact e.quotePricePerFoot_corresponds _ r hwidth hheight

/-- A model at 120 per foot of length for a side of 8 inches. -/
def linear : Engine where
  catalog := {
    products := some [⟨1, 1, "LD", none, none, none, none, none⟩]
    prices := some [⟨1, 1, some 8, none, none, none, some 120⟩]
    rowMultipliers := some []
    columnMultipliers := some [] }
  options := .standard
  overrides := .empty

/-- Three items of the model, each with a screen. -/
def linearRequest : QuoteRequest where
  code := ⟨"LD", false, true, none⟩
  finish := none
  quantity := 3
  discount := Decimal.ofInt 0
  specialColorMultiplier := none
  dimensions := .none

theorem hasSides_linear : linear.HasSides (Text.trimmed linearRequest.code.model) :=
  .inr (eq_ok_of_toOption (by decide +kernel))

theorem exists_item_of_isSome {answer : Except QuoteError QuoteItem}
    (h : answer.toOption.isSome = true) : ∃ item, answer = .ok item := by
  obtain ⟨item, hitem⟩ := Option.isSome_iff_exists.1 h
  exact ⟨item, eq_ok_of_toOption hitem⟩

/-- 200 millimetres by 2 feet, and 2 feet by 200 millimetres. -/
theorem quote_turned_linear : linear.HasSides (Text.trimmed linearRequest.code.model) ∧
    IsNumber (Length.mk 200 .millimeters).toInches ∧ IsNumber (Length.mk 2 .feet).toInches ∧
    ∃ a b, linear.quote (linearRequest.withSides ⟨200, .millimeters⟩ ⟨2, .feet⟩) = .ok a ∧
      linear.quote (linearRequest.withSides ⟨2, .feet⟩ ⟨200, .millimeters⟩) = .ok b ∧
      a.Turned (Length.mk 200 .millimeters).toInches (Length.mk 2 .feet).toInches b := by
  have hwidth : IsNumber (Length.mk 200 .millimeters).toInches := by decide +kernel
  have hheight : IsNumber (Length.mk 2 .feet).toInches := by decide +kernel
  obtain ⟨a, ha⟩ : ∃ a, linear.quote (linearRequest.withSides ⟨200, .millimeters⟩ ⟨2, .feet⟩) =
      .ok a := exists_item_of_isSome (by decide +kernel)
  obtain ⟨b, hb⟩ : ∃ b, linear.quote (linearRequest.withSides ⟨2, .feet⟩ ⟨200, .millimeters⟩) =
      .ok b := exists_item_of_isSome (by decide +kernel)
  have h := linear.quote_turned linearRequest hasSides_linear _ _ hwidth hheight
  rw [ha, hb] at h
  cases h with
  | ok hturned => exact ⟨hasSides_linear, hwidth, hheight, a, b, ha, hb, hturned⟩

end Engine

end Ventilation
