import Ventilation.Proofs.Pricing.FinalAmount
import Ventilation.Proofs.Quote.Bounds

/-!
# The unit price

No amount that a line is made of is negative, whatever the catalog holds: prices are rounded amounts
that were not refused, and a screen costs its least price at least. The unit price is their exact
sum. Prices are whole and have at most 63 bits, and a screen has either no decimals or so few digits
that they fit beside any price.
-/

set_option autoImplicit false
set_option relaxedAutoImplicit false

namespace Ventilation

/-- No amount of the item is negative, and the unit price is their sum, with none of the two
additions rounded. -/
structure QuoteItem.AddsUp (item : QuoteItem) : Prop where
  tablePrice_nonneg : 0 ≤ item.tablePrice.value
  priceAfterFinish_nonneg : 0 ≤ item.priceAfterFinish.value
  filterPrice_nonneg : 0 ≤ item.filterPrice.value
  accessoryPrice_nonneg : 0 ≤ item.accessoryPrice.value
  unitPrice_add : ∃ withFilter, item.priceAfterFinish.add? item.filterPrice = some withFilter ∧
    withFilter.add? item.accessoryPrice = some item.unitPrice
  unitPrice_eq : item.unitPrice.value =
    item.priceAfterFinish.value + item.filterPrice.value + item.accessoryPrice.value

namespace Decimal

/-- A whole amount of at most 64 bits and a short one with two decimals at most are added without
rounding. -/
theorem value_add?_of_short {n : ℕ} {a c : Decimal} (hn : n ≤ 2 ^ 64) (ha : a.IsAmount)
    (hshort : a.IsShort) (hscale : a.scale ≤ 2) (h : (ofInt n).add? a = some c) :
    c.value = n + a.value := by
  have hamount : (ofInt n).IsAmount :=
    ⟨Int.natCast_nonneg n, Int.ofNat_lt.2 (hn.trans_lt (by decide)), Nat.zero_le _⟩
  rw [value_add? hamount ha h, value_ofInt, Int.cast_natCast]
  have hmax : max (ofInt n).scale a.scale = a.scale := Nat.zero_max _
  rw [hmax]
  rcases hshort with hwhole | hlt
  · exact .inl hwhole
  · right
    have hunits : tenTo (a.scale - (ofInt n).scale) ≤ 10 ^ 2 :=
      Nat.pow_le_pow_right (by decide) ((Nat.sub_le _ _).trans hscale)
    have hproduct := Nat.mul_le_mul hn hunits
    have hone : tenTo (a.scale - a.scale) = 1 := by rw [Nat.sub_self]
    have hlimit : 2 ^ 64 * 10 ^ 2 + twoTo 52 < limit := by decide
    rw [hone, Nat.cast_one, mul_one]
    change (n : ℤ) * _ + _ < _
    omega

end Decimal

namespace Engine

variable {e : Engine} {r : QuoteRequest} {line : PricedLine} {item : QuoteItem}

/-- The amounts of an item that its unit price is made of. -/
theorem exists_unitPrice_of_quote (h : e.quote r = .ok item) :
    ∃ line withFilter, e.priceLine r = .ok line ∧
      item.tablePrice = Decimal.ofInt line.tablePrice ∧
      item.priceAfterFinish = Decimal.ofInt line.priceAfterFinish ∧
      money line.filterPrice = .ok item.filterPrice ∧
      money line.accessoryPrice = .ok item.accessoryPrice ∧
      item.priceAfterFinish.add? item.filterPrice = some withFilter ∧
      withFilter.add? item.accessoryPrice = some item.unitPrice := by
  obtain ⟨line, hline, h⟩ := bind_eq_ok_iff.1 h
  obtain ⟨filterPrice, hfilter, h⟩ := bind_eq_ok_iff.1 h
  obtain ⟨withFilter, hwith, h⟩ := bind_eq_ok_iff.1 h
  obtain ⟨accessoryPrice, haccessory, h⟩ := bind_eq_ok_iff.1 h
  obtain ⟨unitPrice, hunit, h⟩ := bind_eq_ok_iff.1 h
  obtain ⟨factor, -, h⟩ := bind_eq_ok_iff.1 h
  obtain ⟨discounted, -, h⟩ := bind_eq_ok_iff.1 h
  obtain ⟨total, -, h⟩ := bind_eq_ok_iff.1 h
  obtain rfl := Except.ok.inj h
  rw [reckoned_eq_ok_iff] at hwith hunit
  exact ⟨line, withFilter, hline, rfl, rfl, hfilter, haccessory, hwith, hunit⟩

theorem addsUp_of_quote (he : Binary64.IsNonneg e.options.accessory.minimum)
    (h : e.quote r = .ok item) : item.AddsUp := by
  obtain ⟨line, withFilter, hline, htable, hprice, hfilter, haccessory, hwith, hunit⟩ :=
    exists_unitPrice_of_quote h
  have hnonneg := isNonneg_of_priceLine he hline
  obtain ⟨n, hn, hfilterValue⟩ := hnonneg.filterPrice
  obtain ⟨p, hp⟩ := Int.eq_ofNat_of_zero_le hnonneg.priceAfterFinish.nonneg
  have hp' : p < 2 ^ 63 := by
    have := hnonneg.priceAfterFinish.lt
    omega
  have hwhole := Except.ok.inj
    (hfilter.symm.trans (money_of_whole hfilterValue (hn.trans_lt (by decide))))
  have haccessory_amount := isAmount_money hnonneg.accessoryPrice haccessory
  obtain ⟨hshort, hscale⟩ := isShort_money hnonneg.accessoryPrice haccessory
  have hsum : withFilter = Decimal.ofInt (p + n : ℕ) := by
    have hfits : p + n < Decimal.limit := Nat.lt_of_lt_of_le (by omega) (show 2 ^ 65 ≤ _ by decide)
    rw [hprice, hp, hwhole, Decimal.add?_ofInt hfits] at hwith
    exact (Option.some.inj hwith).symm
  have hunit' := hsum ▸ hunit
  have hvalue := Decimal.value_add?_of_short (show p + n ≤ 2 ^ 64 by omega) haccessory_amount
    hshort hscale hunit'
  refine ⟨?_, ?_, ?_, Decimal.value_nonneg haccessory_amount.nonneg, ⟨withFilter, hwith, hunit⟩, ?_⟩
  · rw [htable]
    exact Decimal.value_nonneg hnonneg.tablePrice.nonneg
  · rw [hprice]
    exact Decimal.value_nonneg hnonneg.priceAfterFinish.nonneg
  · rw [hwhole]
    exact Decimal.value_nonneg (Int.natCast_nonneg n)
  · rw [hvalue, hprice, hp, hwhole, Decimal.value_ofInt, Decimal.value_ofInt]
    push_cast
    rfl

/-- No negative amount reaches a price or a quote. A price is at least zero and below 2 ^ 63, and it
is the rounding of a final amount, surcharge included. An amount that is not finite, negative or
too large is refused, and what fails before it has an amount stays a failure. The amounts of a quote
are not negative and add up to its unit price. -/
theorem amounts_nonneg {catalog : Catalog Float} {options : EngineOptions}
    (he : build catalog options = .ok e) :
    (∀ model item call b, e.answer model item call = .ok b →
      (0 ≤ b.price ∧ b.price < 2 ^ 63) ∧
        ∃ x, e.finalAmount model item call = .ok x ∧ b.price = roundHalfUp x) ∧
    (∀ model item call x, e.finalAmount model item call = .ok x →
      x.isFinite = false ∨ x < 0 ∨ 9223372036854775808 ≤ x →
        e.answer model item call = .error (.invalidPrice x)) ∧
    (∀ model item call error, e.finalAmount model item call = .error error →
      e.answer model item call = .error error) ∧
    ∀ r item, e.quote r = .ok item → item.AddsUp := by
  refine ⟨fun model item call b h ↦ ?_, fun model item call x hx hrefused ↦ ?_,
    fun model item call error herror ↦ ?_,
    fun r item ↦ addsUp_of_quote (isNonneg_minimum_of_build he)⟩
  · have hrounds := e.rounds_answer model item call
    rw [h] at hrounds
    obtain ⟨x, hx, hprice⟩ := hrounds.exists_amount
    exact ⟨⟨hrounds.isPrice.nonneg, hrounds.isPrice.lt⟩, x, hx, hprice⟩
  · have hrounds := e.rounds_answer model item call
    rw [hx] at hrounds
    exact hrounds.eq_invalidPrice hrefused
  · have hrounds := e.rounds_answer model item call
    rw [herror] at hrounds
    exact hrounds.eq_error

/-- Two models at 500, one of them with 600 taken off. -/
def reduced : Engine where
  catalog := {
    products := some [⟨1, 1, "R", none, none, none, none, none⟩,
      ⟨2, 1, "N", some "TB-600", none, none, none, none⟩]
    prices := some [⟨1, 1, some 10, some 10, some 500, none, none⟩]
    rowMultipliers := some []
    columnMultipliers := some [] }
  options := .standard
  overrides := ⟨[.standard], [("VD", 0)]⟩

/-- The first model is quoted with a screen at 50. The second one would cost less than nothing. -/
theorem amounts_nonneg_reduced : build reduced.catalog .standard = .ok reduced ∧
    (∃ item, reduced.quote (wideRequest true 1 ⟨0, 0⟩ 10) = .ok item ∧
      item.unitPrice = ⟨550, 0⟩ ∧ item.AddsUp) ∧
    reduced.answer "N" .standard (.rect "10\" x 10\"") = .error (.invalidPrice (-100)) := by
  have hbuild : build reduced.catalog .standard = .ok reduced := rfl
  obtain ⟨-, hrefused, -, haddsUp⟩ := amounts_nonneg hbuild
  obtain ⟨item, hitem, hunit⟩ := Option.map_eq_some_iff.1 (show
    (reduced.quote (wideRequest true 1 ⟨0, 0⟩ 10)).toOption.map QuoteItem.unitPrice =
      some ⟨550, 0⟩ by decide +kernel)
  have hquote := eq_ok_of_toOption hitem
  have hamount : reduced.finalAmount "N" .standard (.rect "10\" x 10\"") = .ok (-100) :=
    eq_ok_of_toOption (by decide +kernel)
  exact ⟨hbuild, ⟨item, hquote, hunit, haddsUp _ item hquote⟩,
    hrefused "N" .standard _ (-100) hamount (.inr (.inl (by decide +kernel)))⟩

end Engine

end Ventilation
