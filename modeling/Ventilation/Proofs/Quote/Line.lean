import Ventilation.Proofs.Pricing.Answer
import Ventilation.Quote.Item

/-!
A quote shows the code that was ordered and the size and the prices of its line, all unchanged. The
line is made by the shape of the model.
-/

set_option autoImplicit false
set_option relaxedAutoImplicit false

namespace Ventilation

theorem fromPricing_eq_ok_iff {α : Type} {x : Except PricingError α} {a : α} :
    fromPricing x = .ok a ↔ x = .ok a := by
  cases x <;> simp [fromPricing]

/-- What a quote takes over from its line. -/
structure QuoteItem.Shows (item : QuoteItem) (line : PricedLine) : Prop where
  size : item.size = line.size
  roundedSize : item.roundedSize = line.roundedSize
  tablePrice : item.tablePrice = Decimal.ofInt line.tablePrice
  priceAfterFinish : item.priceAfterFinish = Decimal.ofInt line.priceAfterFinish

namespace Engine

variable {e : Engine}

theorem exists_shows_of_quote {r : QuoteRequest} {item : QuoteItem} (h : e.quote r = .ok item) :
    ∃ line, e.priceLine r = .ok line ∧ item.Shows line := by
  obtain ⟨line, hline, h⟩ := bind_eq_ok_iff.1 h
  obtain ⟨filterPrice, -, h⟩ := bind_eq_ok_iff.1 h
  obtain ⟨withFilter, -, h⟩ := bind_eq_ok_iff.1 h
  obtain ⟨accessoryPrice, -, h⟩ := bind_eq_ok_iff.1 h
  obtain ⟨unitPrice, -, h⟩ := bind_eq_ok_iff.1 h
  obtain ⟨factor, -, h⟩ := bind_eq_ok_iff.1 h
  obtain ⟨discounted, -, h⟩ := bind_eq_ok_iff.1 h
  obtain ⟨total, -, h⟩ := bind_eq_ok_iff.1 h
  obtain rfl := Except.ok.inj h
  exact ⟨line, hline, ⟨rfl, rfl, rfl, rfl⟩⟩

theorem exists_priceLine_of_quote {r : QuoteRequest} {item : QuoteItem}
    (h : e.quote r = .ok item) :
    ∃ line, e.priceLine r = .ok line ∧ item.roundedSize = line.roundedSize ∧
      item.priceAfterFinish = Decimal.ofInt line.priceAfterFinish := by
  obtain ⟨line, hline, hshows⟩ := exists_shows_of_quote h
  exact ⟨line, hline, hshows.roundedSize, hshows.priceAfterFinish⟩

/-- A line shows the code that was ordered. -/
theorem productCode_of_quote {r : QuoteRequest} {item : QuoteItem}
    (h : e.quote r = .ok item) : item.productCode = r.code.text := by
  obtain ⟨line, -, h⟩ := bind_eq_ok_iff.1 h
  obtain ⟨filterPrice, -, h⟩ := bind_eq_ok_iff.1 h
  obtain ⟨withFilter, -, h⟩ := bind_eq_ok_iff.1 h
  obtain ⟨accessoryPrice, -, h⟩ := bind_eq_ok_iff.1 h
  obtain ⟨unitPrice, -, h⟩ := bind_eq_ok_iff.1 h
  obtain ⟨factor, -, h⟩ := bind_eq_ok_iff.1 h
  obtain ⟨discounted, -, h⟩ := bind_eq_ok_iff.1 h
  obtain ⟨total, -, h⟩ := bind_eq_ok_iff.1 h
  obtain rfl := Except.ok.inj h
  rfl

/-- The line of a model by its shape. -/
def lineOfShape (e : Engine) (model : String) (r : QuoteRequest) :
    Shape → Except QuoteError PricedLine
  | .rectangular => e.quoteRectangular model r
  | .pricePerFoot => e.quotePricePerFoot model r
  | .diameter => e.quoteDiameter model r
  | .dimensionless perFoot => e.quoteDimensionless model r perFoot

theorem priceLine_eq_lineOfShape {r : QuoteRequest} {shape : Shape}
    (hshape : e.shape (Text.trimmed r.code.model) = .ok shape) :
    e.priceLine r = e.lineOfShape (Text.trimmed r.code.model) r shape := by
  have hline : e.priceLine r = fromPricing (e.shape (Text.trimmed r.code.model)) >>=
      e.lineOfShape (Text.trimmed r.code.model) r := by
    refine bind_congr fun shape ↦ ?_
    cases shape <;> rfl
  rw [hline, hshape]
  rfl

end Engine

end Ventilation
