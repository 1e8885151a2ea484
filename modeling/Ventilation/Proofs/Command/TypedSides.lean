import Ventilation.Command.Price
import Ventilation.Proofs.Measure.SizeText
import Ventilation.Proofs.Pricing.Refusal
import Ventilation.Proofs.Quote.Turned

/-!
# Typed sides of linear items

A linear item is priced by a typed size and by a quote from the same two figures, its matched side
and its length. The typed size is cut to whole inches first, so the price is that of a quote for the
whole inches. The quote for the sides themselves agrees with it where the length is whole and the
matched side is rounded down; a length with a fraction is sold short by it.
-/

set_option autoImplicit false
set_option relaxedAutoImplicit false

namespace Ventilation

open Binary64

namespace Engine

variable {e : Engine} {model : String} {item : ItemOptions} {error : PricingError}

/-! ### What the finish decides -/

/-- All that can fail because of the finish is the amount. -/
theorem chain_error_of_finish {product : Product} {price : TablePrice Float} {size : PricedSize}
    {label : String} (finish : Option Finish)
    (h : e.chain product item price size label = .error error) :
    (∃ x, error = .invalidPrice x) ∨
      e.chain product { item with finish } price size label = .error error := by
  unfold chain at h ⊢
  simp only at h ⊢
  split at h
  · next hnone =>
    rw [if_pos hnone]
    exact .inr h
  · next hsome =>
    rw [if_neg hsome]
    split at h
    · next hmultiplier =>
      rw [if_pos hmultiplier]
      exact .inr h
    · exact .inl ⟨_, (ChainInput.run_eq_error_iff.1 h).1⟩

theorem priceFoot_error_of_finish {side length : Float} (finish : Option Finish)
    (h : e.priceFoot model item side length = .error error) :
    (∃ x, error = .invalidPrice x) ∨
      e.priceFoot model { item with finish } side length = .error error := by
  unfold priceFoot at h ⊢
  exact or_bind_eq_error h fun product h ↦ or_bind_eq_error h fun found h ↦
    or_bind_eq_error h fun rate h ↦ chain_error_of_finish finish h

/-! ### The price by two sides -/

/-- The price of a linear item by its canonical sides; `size` names them in an error. -/
def priceSides (e : Engine) (model : String) (item : ItemOptions) (d : Dimensions Float)
    (size : String) : Except PricingError PriceBreakdown := do
  match ← e.roundFoot? model (Binary64.round d.height) with
  | none => .error (.sizeNotFound model size)
  | some side => e.priceFoot model item side d.width

end Engine

namespace Command

theorem priced_eq_ok_iff {α : Type} {x : Except PricingError α} {a : α} :
    priced x = .ok a ↔ x = .ok a := by
  cases x <;> simp [priced]

/-- Failures of one step: the same but for how a size is worded, and for an amount that is no
price. -/
inductive SameFailure : RequestError → QuoteError → Prop
  | same (error : PricingError) : SameFailure (.pricing error) (.pricing error)
  | size (model typed quoted : String) :
    SameFailure (.pricing (.sizeNotFound model typed)) (.pricing (.sizeNotFound model quoted))
  | amount (typed quoted : Float) :
    SameFailure (.pricing (.invalidPrice typed)) (.pricing (.invalidPrice quoted))

/-- The price by a typed size is that after the finish of a quote. A quote prices the item without
its finish and its filter as well, so it may fail over them. -/
structure AgreesWithQuote (e : Engine) (r : QuoteRequest) (size : String)
    (width height : Length) : Prop where
  sold : ∀ item, e.quote (r.withSides width height) = .ok item →
    ∃ b, priceOfText e (Text.trimmed r.code.model) r.item (some size) = .ok b ∧
      item.priceAfterFinish = Decimal.ofInt b.price
  refused : ∀ error, priceOfText e (Text.trimmed r.code.model) r.item (some size) = .error error →
    ∃ error', e.quote (r.withSides width height) = .error error' ∧ SameFailure error error'
  priced : ∀ b neutral filter,
    priceOfText e (Text.trimmed r.code.model) r.item (some size) = .ok b →
    priceOfText e (Text.trimmed r.code.model) r.neutralItem (some size) = .ok neutral →
    e.filterPrice (r.withSides width height) (.rect (Engine.canonicalSides width height).1) =
      .ok filter →
    ∃ line, e.priceLine (r.withSides width height) = .ok line ∧ line.priceAfterFinish = b.price

end Command

namespace Engine

open Command

variable {e : Engine} {model : String} {r : QuoteRequest} {width height : Length} {size : String}

theorem priceSides_of_quotePricePerFoot {line : PricedLine}
    (h : e.quotePricePerFoot model (r.withSides width height) = .ok line) :
    ∃ b, e.priceSides model r.item (canonicalSides width height).1 size = .ok b ∧
      line.priceAfterFinish = b.price := by
  unfold quotePricePerFoot at h
  rw [QuoteRequest.sides_withSides, ok_bind] at h
  simp only at h
  generalize canonicalSides width height = sides at h ⊢
  obtain ⟨d, swapped⟩ := sides
  obtain ⟨side, hside, h⟩ := bind_eq_ok_iff.1 h
  rw [fromPricing_eq_ok_iff] at hside
  cases side with
  | none => cases h
  | some side =>
    obtain ⟨neutral, -, h⟩ := bind_eq_ok_iff.1 h
    obtain ⟨finished, hfinished, h⟩ := bind_eq_ok_iff.1 h
    obtain ⟨filter, -, h⟩ := bind_eq_ok_iff.1 h
    obtain rfl := Except.ok.inj h
    refine ⟨finished, ?_, rfl⟩
    unfold priceSides
    rw [hside, ok_bind]
    exact fromPricing_eq_ok_iff.1 hfinished

theorem quotePricePerFoot_of_priceSides {b neutral : PriceBreakdown} {filter : Float}
    (hb : e.priceSides model r.item (canonicalSides width height).1 size = .ok b)
    (hneutral : e.priceSides model r.neutralItem (canonicalSides width height).1 size = .ok neutral)
    (hfilter : e.filterPrice (r.withSides width height) (.rect (canonicalSides width height).1) =
      .ok filter) :
    ∃ line, e.quotePricePerFoot model (r.withSides width height) = .ok line ∧
      line.priceAfterFinish = b.price := by
  unfold priceSides at hb hneutral
  obtain ⟨side, hside, hb⟩ := bind_eq_ok_iff.1 hb
  rw [hside, ok_bind] at hneutral
  unfold quotePricePerFoot
  rw [QuoteRequest.sides_withSides, ok_bind]
  simp only [hside]
  cases side with
  | none => cases hb
  | some side =>
    simp only at hb hneutral
    simp only [fromPricing, ok_bind, QuoteRequest.item_withSides,
      QuoteRequest.neutralItem_withSides, hb, hneutral, hfilter]
    exact ⟨_, rfl, rfl⟩

/-- A failing price fails the quote over the same step, though the item without the finish may be
what it fails for. -/
theorem quotePricePerFoot_of_priceSides_error {error : PricingError}
    (h : e.priceSides model r.item (canonicalSides width height).1 size = .error error) :
    ∃ error', e.quotePricePerFoot model (r.withSides width height) = .error error' ∧
      SameFailure (.pricing error) error' := by
  unfold priceSides at h
  unfold quotePricePerFoot
  rw [QuoteRequest.sides_withSides, ok_bind]
  rcases bind_eq_error_iff.1 h with hside | ⟨side, hside, h⟩
  · simp only [hside]
    exact ⟨_, rfl, .same error⟩
  · simp only [hside]
    cases side with
    | none =>
      obtain rfl := Except.error.inj h
      exact ⟨_, rfl, .size _ _ _⟩
    | some side =>
      simp only at h
      simp only [fromPricing, ok_bind, QuoteRequest.item_withSides,
        QuoteRequest.neutralItem_withSides, h]
      generalize (canonicalSides width height).1 = d at *
      cases hneutral : e.priceFoot model r.neutralItem side d.width with
      | error error' =>
        refine ⟨_, rfl, ?_⟩
        rcases priceFoot_error_of_finish none h with ⟨x, rfl⟩ | hsame
        · rcases priceFoot_error_of_finish r.item.finish hneutral with ⟨y, rfl⟩ | hsame
          · exact .amount x y
          · obtain rfl := Except.error.inj (h.symm.trans hsame)
            exact .same _
        · obtain rfl := Except.error.inj (hneutral.symm.trans hsame)
          exact .same _
      | ok neutral => exact ⟨_, rfl, .same error⟩

end Engine

namespace Command

variable {e : Engine} {r : QuoteRequest} {width height : Length} {model size : String}
  {x y : Float}

theorem agreesWithQuote_of_priceSides
    (hshape : e.shape (Text.trimmed r.code.model) = .ok .pricePerFoot)
    (h : ∀ item, priceOfText e (Text.trimmed r.code.model) item (some size) =
      priced (e.priceSides (Text.trimmed r.code.model) item
        (Engine.canonicalSides width height).1 size)) :
    AgreesWithQuote e r size width height := by
  have hline : e.priceLine (r.withSides width height) =
      e.quotePricePerFoot (Text.trimmed r.code.model) (r.withSides width height) :=
    Engine.priceLine_eq_lineOfShape (r := r.withSides width height) hshape
  constructor
  · intro item hitem
    obtain ⟨line, hpriced, hshows⟩ := Engine.exists_shows_of_quote hitem
    rw [hline] at hpriced
    obtain ⟨b, hb, hprice⟩ : ∃ b, e.priceSides (Text.trimmed r.code.model) r.item
        (Engine.canonicalSides width height).1 size = .ok b ∧ line.priceAfterFinish = b.price :=
      Engine.priceSides_of_quotePricePerFoot hpriced
    refine ⟨b, ?_, by rw [hshows.priceAfterFinish, hprice]⟩
    rw [h, hb]
    rfl
  · intro error herror
    rw [h] at herror
    cases hprice : e.priceSides (Text.trimmed r.code.model) r.item
        (Engine.canonicalSides width height).1 size with
    | ok b =>
      rw [hprice] at herror
      cases herror
    | error error' =>
      rw [hprice] at herror
      obtain rfl := Except.error.inj herror
      obtain ⟨failure, hfailure, hsame⟩ := Engine.quotePricePerFoot_of_priceSides_error hprice
      refine ⟨failure, ?_, hsame⟩
      unfold Engine.quote
      rw [hline, hfailure]
      rfl
  · intro b neutral filter hb hneutral hfilter
    rw [h] at hb hneutral
    rw [hline]
    exact Engine.quotePricePerFoot_of_priceSides (priced_eq_ok_iff.1 hb)
      (priced_eq_ok_iff.1 hneutral) hfilter

/-! ### Sides cut to whole inches -/

theorem toList_sidesText (x y : Float) :
    (Engine.sidesText ⟨x, .inches⟩ ⟨y, .inches⟩).toList =
      Size.sidesChars (textChars plain x) (textChars plain y) := by
  unfold Engine.sidesText Length.text display Binary64.text Size.sidesChars
  simp only [String.toList_append, String.toList_ofList, LengthUnit.suffix, List.append_assoc]
  rfl

/-- A typed size is priced by its whole inches. -/
theorem priceOfText_sidesText (hshape : e.shape model = .ok .pricePerFoot) (hx : IsUnsigned x)
    (hy : IsUnsigned y) (item : ItemOptions) :
    priceOfText e model item (some (Engine.sidesText ⟨x, .inches⟩ ⟨y, .inches⟩)) =
      priced (e.priceSides model item (Dimensions.mk (trunc x) (trunc y)).canonicalize.1
        (Engine.sidesText ⟨x, .inches⟩ ⟨y, .inches⟩)) := by
  have hsize : Size.ofText? (Engine.sidesText ⟨x, .inches⟩ ⟨y, .inches⟩) =
      .ok ⟨trunc x, trunc y⟩ :=
    Size.ofText?_of_sidesChars (isPlainNumeral_textChars hx) (isPlainNumeral_textChars hy)
      (read_textChars hx) (read_textChars hy) (toList_sidesText x y)
  unfold priceOfText
  rw [hshape]
  simp only [priced, ok_bind]
  unfold priceFootOfText Engine.priceSides
  rw [hsize]
  simp only [measured, ok_bind]
  generalize (Dimensions.mk (trunc x) (trunc y)).canonicalize.1 = d
  cases e.roundFoot? model (Binary64.round d.height) with
  | error error => rfl
  | ok side => cases side <;> rfl

/-- Canonical sides of which nothing is lost in whole inches: the length has no fraction, and that
of the matched side is less than a half. -/
structure IsUncut (d : Dimensions Float) : Prop where
  length_eq : trunc d.width = d.width
  side_eq : Binary64.round d.height = trunc d.height

theorem canonicalize_trunc (hx : IsUnsigned x) (hy : IsUnsigned y)
    (h : IsUncut (Dimensions.mk x y).canonicalize.1) :
    (Dimensions.mk (trunc x) (trunc y)).canonicalize.1 =
      ⟨(Dimensions.mk x y).canonicalize.1.width,
        trunc (Dimensions.mk x y).canonicalize.1.height⟩ := by
  have hlength := h.length_eq
  unfold Dimensions.canonicalize at hlength ⊢
  simp only at hlength ⊢
  by_cases hlt : x < y
  · rw [if_pos hlt] at hlength ⊢
    change trunc y = y at hlength
    obtain ⟨hnumber, -, hle⟩ := le_iff.1 (trunc_le hx)
    obtain ⟨-, hnumber', hlt'⟩ := lt_iff.1 hlt
    have hcut : trunc x < trunc y := by
      rw [hlength]
      exact lt_iff.2 ⟨hnumber, hnumber', by omega⟩
    rw [if_pos hcut, hlength]
  · rw [if_neg hlt] at hlength ⊢
    change trunc x = x at hlength
    have hcut : ¬ trunc x < trunc y := by
      rw [hlength]
      exact fun h ↦ hlt (Binary64.lt_of_lt_of_le h (trunc_le hy))
    rw [if_neg hcut, hlength]

theorem isUnsigned_height (hx : IsUnsigned x) (hy : IsUnsigned y) :
    IsUnsigned (Dimensions.mk x y).canonicalize.1.height := by
  unfold Dimensions.canonicalize
  split
  · exact hx
  · exact hy

/-- Matched sides are rounded before they are looked up, so that a cut is only seen from half an
inch on. -/
theorem priceSides_trunc {d : Dimensions Float} (hheight : IsUnsigned d.height)
    (h : IsUncut d) (item : ItemOptions) :
    e.priceSides model item ⟨d.width, trunc d.height⟩ size = e.priceSides model item d size := by
  have hround : Binary64.round (trunc d.height) = Binary64.round d.height :=
    (toWhole_trunc .nearestAway hheight).trans h.side_eq.symm
  unfold Engine.priceSides
  simp only [hround]

/-- A typed size has the price that a quote has for its whole inches. A quote for the sides
themselves agrees if nothing of them is lost in whole inches. -/
theorem priceOfText_agrees (e : Engine) (r : QuoteRequest)
    (hshape : e.shape (Text.trimmed r.code.model) = .ok .pricePerFoot) (x y : Float)
    (hx : IsUnsigned x) (hy : IsUnsigned y) :
    AgreesWithQuote e r (Engine.sidesText ⟨x, .inches⟩ ⟨y, .inches⟩) ⟨trunc x, .inches⟩
        ⟨trunc y, .inches⟩ ∧
      (IsUncut (Engine.canonicalSides ⟨x, .inches⟩ ⟨y, .inches⟩).1 →
        AgreesWithQuote e r (Engine.sidesText ⟨x, .inches⟩ ⟨y, .inches⟩) ⟨x, .inches⟩
          ⟨y, .inches⟩) := by
  refine ⟨agreesWithQuote_of_priceSides hshape (priceOfText_sidesText hshape hx hy),
    fun huncut ↦ agreesWithQuote_of_priceSides hshape fun item ↦ ?_⟩
  rw [priceOfText_sidesText hshape hx hy, canonicalize_trunc hx hy huncut]
  exact congrArg priced (priceSides_trunc (isUnsigned_height hx hy) huncut item)

/-- A model at 30 per foot of length for a side of 4 inches. -/
def perFoot : Engine where
  catalog := {
    products := some [⟨20, 3, "LB-1", none, none, none, none, none⟩]
    prices := some [⟨20, 3, some 4, none, none, none, some 30⟩]
    rowMultipliers := some []
    columnMultipliers := some [] }
  options := .standard
  overrides := ⟨[.standard], [("VD", 0)]⟩

def perFootRequest : QuoteRequest where
  code := ⟨"LB-1", false, false, none⟩
  finish := none
  quantity := 1
  discount := Decimal.ofInt 0
  specialColorMultiplier := none
  dimensions := .none

theorem shape_perFoot :
    perFoot.shape (Text.trimmed perFootRequest.code.model) = .ok .pricePerFoot :=
  eq_ok_of_toOption (by decide +kernel)

theorem exists_quote_perFoot {width height : Length} {price : ℤ}
    (h : (perFoot.quote (perFootRequest.withSides width height)).toOption.map
      QuoteItem.priceAfterFinish = some (Decimal.ofInt price)) :
    ∃ item, perFoot.quote (perFootRequest.withSides width height) = .ok item ∧
      item.priceAfterFinish = Decimal.ofInt price := by
  obtain ⟨item, hitem, hprice⟩ := Option.map_eq_some_iff.1 h
  exact ⟨item, eq_ok_of_toOption hitem, hprice⟩

/-- Three feet for a side of 3.4 inches, which is matched as 3 by both. -/
theorem priceOfText_agrees_perFoot :
    perFoot.shape (Text.trimmed perFootRequest.code.model) = .ok .pricePerFoot ∧
    IsUnsigned 36 ∧ IsUnsigned 3.4 ∧
    IsUncut (Engine.canonicalSides ⟨36, .inches⟩ ⟨3.4, .inches⟩).1 ∧
    ∃ item b, perFoot.quote (perFootRequest.withSides ⟨36, .inches⟩ ⟨3.4, .inches⟩) = .ok item ∧
      priceOfText perFoot "LB-1" perFootRequest.item
        (some (Engine.sidesText ⟨36, .inches⟩ ⟨3.4, .inches⟩)) = .ok b ∧
      item.priceAfterFinish = Decimal.ofInt 90 ∧ item.priceAfterFinish = Decimal.ofInt b.price := by
  have hx : IsUnsigned 36 := ⟨by decide +kernel, by decide +kernel⟩
  have hy : IsUnsigned 3.4 := ⟨by decide +kernel, by decide +kernel⟩
  have huncut : IsUncut (Engine.canonicalSides ⟨36, .inches⟩ ⟨3.4, .inches⟩).1 :=
    ⟨by decide +kernel, by decide +kernel⟩
  obtain ⟨item, hitem, hprice⟩ : ∃ item, perFoot.quote
      (perFootRequest.withSides ⟨36, .inches⟩ ⟨3.4, .inches⟩) = .ok item ∧
      item.priceAfterFinish = Decimal.ofInt 90 := exists_quote_perFoot (by decide +kernel)
  obtain ⟨b, hb, hagree⟩ :=
    ((priceOfText_agrees perFoot perFootRequest shape_perFoot 36 3.4 hx hy).2 huncut).sold item
      hitem
  exact ⟨shape_perFoot, hx, hy, huncut, item, b, hitem, hb, hprice, hagree⟩

/-- 30.5 inches are sold as 30. -/
theorem typed_length_sold_short :
    Engine.build perFoot.catalog .standard = .ok perFoot ∧
    perFoot.shape (Text.trimmed perFootRequest.code.model) = .ok .pricePerFoot ∧
    IsUnsigned 30.5 ∧ IsUnsigned 4 ∧
    Engine.sidesText ⟨30.5, .inches⟩ ⟨4, .inches⟩ = "30.5\" x 4\"" ∧
    (priceOfText perFoot "LB-1" perFootRequest.item (some "30.5\" x 4\"")).toOption.map
      PriceBreakdown.price = some 75 ∧
    (perFoot.quote (perFootRequest.withSides ⟨30.5, .inches⟩ ⟨4, .inches⟩)).toOption.map
      QuoteItem.priceAfterFinish = some (Decimal.ofInt 76) ∧
    ¬ AgreesWithQuote perFoot perFootRequest "30.5\" x 4\"" ⟨30.5, .inches⟩ ⟨4, .inches⟩ := by
  have htyped : (priceOfText perFoot "LB-1" perFootRequest.item (some "30.5\" x 4\"")).toOption.map
      PriceBreakdown.price = some 75 := by decide +kernel
  have hquoted : (perFoot.quote
      (perFootRequest.withSides ⟨30.5, .inches⟩ ⟨4, .inches⟩)).toOption.map
      QuoteItem.priceAfterFinish = some (Decimal.ofInt 76) := by decide +kernel
  refine ⟨rfl, shape_perFoot, ⟨by decide +kernel, by decide +kernel⟩,
    ⟨by decide +kernel, by decide +kernel⟩, by decide +kernel, htyped, hquoted, fun h ↦ ?_⟩
  obtain ⟨item, hitem, hprice⟩ := exists_quote_perFoot hquoted
  obtain ⟨b, hb, hagree⟩ := h.sold item hitem
  have hmodel : Text.trimmed perFootRequest.code.model = "LB-1" := by decide +kernel
  rw [hmodel] at hb
  rw [hb] at htyped
  have hb : b.price = 75 := Option.some.inj htyped
  rw [hprice, hb] at hagree
  exact absurd hagree (by decide)

end Command

end Ventilation
