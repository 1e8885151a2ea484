import Ventilation.Proofs.Quote.Amount
import Ventilation.Proofs.Quote.Figures

/-!
# The bounds of a quote line

Under a discount of 0 to 100 percent the discounted unit price lies between zero and the unit price,
and the total between zero and the full price. A quote overflows only where the unit price or the
full price of the ordered quantity overflows already, or the id of the row of a product without
dimensions.
-/

set_option autoImplicit false
set_option relaxedAutoImplicit false

namespace Ventilation

theorem reckoned_eq_ok_iff {operation : String} {result : Option Decimal} {a : Decimal} :
    reckoned operation result = .ok a ↔ result = some a := by
  cases result <;> simp [reckoned]

theorem eq_overflow_of_reckoned {operation : String} {result : Option Decimal} {error : QuoteError}
    (h : reckoned operation result = .error error) :
    error = .overflow operation ∧ result = none := by
  cases result with
  | none => exact ⟨(Except.error.inj h).symm, rfl⟩
  | some a => cases h

/-! ### Amounts of a line -/

/-- The price of one item before the discount, with its filter and its screen. -/
def PricedLine.unitPrice (line : PricedLine) : Except QuoteError Decimal := do
  let filterPrice ← money line.filterPrice
  let withFilter ← reckoned "Addition" ((Decimal.ofInt line.priceAfterFinish).add? filterPrice)
  let accessoryPrice ← money line.accessoryPrice
  reckoned "Addition" (withFilter.add? accessoryPrice)

/-- The unit price, or the full price of so many items, does not fit a decimal. -/
def PricedLine.Overflows (line : PricedLine) (quantity : ℕ) : Prop :=
  (∃ operation, line.unitPrice = .error (.overflow operation)) ∨
    ∃ unitPrice, line.unitPrice = .ok unitPrice ∧
      unitPrice.mul? (Decimal.ofInt quantity) = none

/-- The amounts of an item are in their bounds. The full price that bounds the total is the decimal
product of unit price and quantity, and the exact one unless that product is rounded. -/
structure QuoteItem.IsBounded (item : QuoteItem) : Prop where
  discounted_nonneg : 0 ≤ item.discountedUnitPrice.value
  discounted_le : item.discountedUnitPrice.value ≤ item.unitPrice.value
  total_nonneg : 0 ≤ item.total.value
  total_le : ∀ full, item.unitPrice.mul? (Decimal.ofInt item.quantity) = some full →
    item.total.value ≤ full.value
  total_le_mul : item.unitPrice.coefficient * item.quantity < Decimal.limit ∨
      item.unitPrice.mul? (Decimal.ofInt item.quantity) = none →
    item.total.value ≤ item.unitPrice.value * item.quantity

namespace Decimal

variable {unitPrice factor discounted total discount : Decimal} {quantity : ℕ}

theorem isAmount_ofInt {n : ℤ} (h : IsPrice n) : (ofInt n).IsAmount :=
  ⟨h.nonneg, h.lt.trans (by decide), Nat.zero_le _⟩

theorem IsAmount.value_le_coefficient (h : unitPrice.IsAmount) :
    unitPrice.value ≤ unitPrice.coefficient :=
  div_le_self (by exact_mod_cast h.nonneg) (one_le_pow₀ (by norm_num))

theorem IsAmount.roundEven_lt_limit (h : unitPrice.IsAmount) :
    roundEven unitPrice.value < limit := by
  obtain ⟨n, hn⟩ := Int.eq_ofNat_of_zero_le h.nonneg
  have hle := h.value_le_coefficient
  have hlimit := h.lt_limit
  rw [hn] at hle hlimit
  exact (roundEven_le_natCast (value_nonneg h.nonneg) hle).trans_lt (Int.ofNat_lt.1 hlimit)

theorem exists_factor (h : discount.IsPercentage) :
    ∃ factor, (ofInt 1).sub? discount.hundredth = some factor ∧ factor.IsAmount ∧
      factor.value ≤ 1 := by
  obtain ⟨hpart, hle⟩ := h.hundredth
  obtain ⟨factor, hfactor, hamount, hvalue⟩ := exists_sub?_of_value_le_one hpart hle
  refine ⟨factor, hfactor, hamount, ?_⟩
  rw [hvalue]
  exact sub_le_self _ (value_nonneg hpart.nonneg)

/-- A part of an amount is an amount that is not greater. -/
theorem exists_mul?_of_le_one (hunit : unitPrice.IsAmount) (hfactor : factor.IsAmount)
    (hle : factor.value ≤ 1) :
    ∃ discounted, unitPrice.mul? factor = some discounted ∧ discounted.IsAmount ∧
      discounted.value ≤ unitPrice.value := by
  have hunit' := value_nonneg hunit.nonneg
  have hproduct : 0 ≤ unitPrice.value * factor.value :=
    mul_nonneg hunit' (value_nonneg hfactor.nonneg)
  have hmul : unitPrice.value * factor.value ≤ unitPrice.value := mul_le_of_le_one_right hunit' hle
  obtain ⟨discounted, hdiscounted⟩ := (exists_mul?_iff hunit.nonneg hfactor.nonneg).2
    ((roundEven_mono hproduct hmul).trans_lt hunit.roundEven_lt_limit)
  have hrounded := isRounded_mul? hunit.nonneg hfactor.nonneg hdiscounted
  exact ⟨discounted, hdiscounted, hrounded.isAmount,
    hrounded.value_le_value hunit.isRounded hproduct hmul⟩

theorem value_mul_ofInt_le (hle : discounted.value ≤ unitPrice.value) (quantity : ℕ) :
    discounted.value * (ofInt quantity).value ≤ unitPrice.value * (ofInt quantity).value := by
  rw [value_ofInt]
  exact mul_le_mul_of_nonneg_right hle (by positivity)

/-- The total fits where the full price does, and is not greater. -/
theorem exists_total {full : Decimal} (hunit : unitPrice.IsAmount)
    (hdiscounted : discounted.IsAmount) (hle : discounted.value ≤ unitPrice.value)
    (hfull : unitPrice.mul? (ofInt quantity) = some full) :
    ∃ total, discounted.mul? (ofInt quantity) = some total ∧ total.value ≤ full.value := by
  have hquantity : 0 ≤ (ofInt quantity).coefficient := Int.natCast_nonneg quantity
  have hproduct : 0 ≤ discounted.value * (ofInt quantity).value :=
    mul_nonneg (value_nonneg hdiscounted.nonneg) (value_nonneg hquantity)
  have hlimit := (exists_mul?_iff hunit.nonneg hquantity).1 ⟨full, hfull⟩
  obtain ⟨total, htotal⟩ := (exists_mul?_iff hdiscounted.nonneg hquantity).2
    ((roundEven_mono hproduct (value_mul_ofInt_le hle quantity)).trans_lt hlimit)
  exact ⟨total, htotal, (isRounded_mul? hdiscounted.nonneg hquantity htotal).value_le_value
    (isRounded_mul? hunit.nonneg hquantity hfull) hproduct (value_mul_ofInt_le hle quantity)⟩

/-- The total does not exceed the exact full price, if that is a decimal or is beyond all of
them. -/
theorem total_le_mul (hunit : unitPrice.IsAmount) (hdiscounted : discounted.IsAmount)
    (hle : discounted.value ≤ unitPrice.value)
    (htotal : discounted.mul? (ofInt quantity) = some total)
    (hfull : unitPrice.coefficient * quantity < limit ∨
      unitPrice.mul? (ofInt quantity) = none) :
    total.value ≤ unitPrice.value * quantity := by
  have hquantity : 0 ≤ (ofInt quantity).coefficient := Int.natCast_nonneg quantity
  have hproduct : 0 ≤ discounted.value * (ofInt quantity).value :=
    mul_nonneg (value_nonneg hdiscounted.nonneg) (value_nonneg hquantity)
  have hrounded := isRounded_mul? hdiscounted.nonneg hquantity htotal
  have hmul := value_mul_ofInt_le hle quantity
  have hcast : (ofInt quantity).value = quantity := value_ofInt quantity
  rcases hfull with hfits | hnone
  · have hamount : (⟨unitPrice.coefficient * quantity, unitPrice.scale⟩ : Decimal).IsAmount :=
      ⟨Int.mul_nonneg hunit.nonneg (Int.natCast_nonneg _), hfits, hunit.scale_le⟩
    have hvalue : (⟨unitPrice.coefficient * quantity, unitPrice.scale⟩ : Decimal).value =
        unitPrice.value * (ofInt quantity).value := by
      rw [hcast, value, value, Int.cast_mul, Int.cast_natCast, mul_div_right_comm]
    rw [← hcast, ← hvalue]
    exact hrounded.value_le_value hamount.isRounded hproduct (hmul.trans_eq hvalue.symm)
  · have hbeyond : limit ≤ roundEven (unitPrice.value * (ofInt quantity).value) := by
      rw [← not_lt, ← exists_mul?_iff hunit.nonneg hquantity, hnone]
      rintro ⟨full, hfull⟩
      cases hfull
    have hhalf : ((limit - 1 : ℕ) : ℚ) + 1 / 2 ≤ unitPrice.value * (ofInt quantity).value :=
      le_of_lt_roundEven (hproduct.trans hmul) (Nat.lt_of_lt_of_le (by decide) hbeyond)
    have hlimit : total.coefficient ≤ (limit - 1 : ℕ) := by
      have := hrounded.lt_limit
      omega
    have hlimit' : (total.coefficient : ℚ) ≤ (limit - 1 : ℕ) := by exact_mod_cast hlimit
    rw [hcast] at hhalf
    linarith [hrounded.isAmount.value_le_coefficient]

end Decimal

namespace Engine

variable {e : Engine} {r : QuoteRequest} {line : PricedLine} {item : QuoteItem}

theorem isAmount_unitPrice {unitPrice : Decimal} (hline : line.IsNonneg)
    (h : line.unitPrice = .ok unitPrice) : unitPrice.IsAmount := by
  obtain ⟨filterPrice, hfilter, h⟩ := bind_eq_ok_iff.1 h
  obtain ⟨withFilter, hwith, h⟩ := bind_eq_ok_iff.1 h
  obtain ⟨accessoryPrice, haccessory, h⟩ := bind_eq_ok_iff.1 h
  rw [reckoned_eq_ok_iff] at hwith h
  have hsum := Decimal.isRounded_add? (Decimal.isAmount_ofInt hline.priceAfterFinish)
    (isAmount_money hline.filterPrice.place_nonneg hfilter) hwith
  exact (Decimal.isRounded_add? hsum.isAmount
    (isAmount_money hline.accessoryPrice haccessory) h).isAmount

/-- How the amounts of an item come about. -/
theorem exists_amounts_of_quote (h : e.quote r = .ok item) :
    ∃ line factor, e.priceLine r = .ok line ∧ line.unitPrice = .ok item.unitPrice ∧
      (Decimal.ofInt 1).sub? r.discount.hundredth = some factor ∧
      item.unitPrice.mul? factor = some item.discountedUnitPrice ∧
      item.discountedUnitPrice.mul? (Decimal.ofInt item.quantity) = some item.total := by
  obtain ⟨line, hline, h⟩ := bind_eq_ok_iff.1 h
  obtain ⟨filterPrice, hfilter, h⟩ := bind_eq_ok_iff.1 h
  obtain ⟨withFilter, hwith, h⟩ := bind_eq_ok_iff.1 h
  obtain ⟨accessoryPrice, haccessory, h⟩ := bind_eq_ok_iff.1 h
  obtain ⟨unitPrice, hunit, h⟩ := bind_eq_ok_iff.1 h
  obtain ⟨factor, hfactor, h⟩ := bind_eq_ok_iff.1 h
  obtain ⟨discounted, hdiscounted, h⟩ := bind_eq_ok_iff.1 h
  obtain ⟨total, htotal, h⟩ := bind_eq_ok_iff.1 h
  obtain rfl := Except.ok.inj h
  rw [reckoned_eq_ok_iff] at hfactor hdiscounted htotal
  refine ⟨line, factor, hline, ?_, hfactor, hdiscounted, htotal⟩
  unfold PricedLine.unitPrice
  rw [hfilter, ok_bind, hwith, ok_bind, haccessory, ok_bind]
  exact hunit

/-- An overflow is one of the id of a row, one of the unit price, or one of what is made of that. -/
theorem exists_line_of_overflow {error : QuoteError} (h : e.quote r = .error error)
    (hoverflow : error.overflow? ≠ none) :
    e.SlotOverflows (Text.trimmed r.code.model) ∨ ∃ line, e.priceLine r = .ok line ∧
      ((∃ operation, line.unitPrice = .error (.overflow operation)) ∨
        ∃ unitPrice, line.unitPrice = .ok unitPrice ∧
          ∀ factor discounted, (Decimal.ofInt 1).sub? r.discount.hundredth = some factor →
            unitPrice.mul? factor = some discounted →
            discounted.mul? (Decimal.ofInt r.quantity) = none) := by
  obtain h | ⟨line, hline, h⟩ := bind_eq_error_iff.1 h
  · exact .inl (e.overflowsOnly_priceLine r error h hoverflow)
  refine .inr ⟨line, hline, ?_⟩
  unfold PricedLine.unitPrice
  obtain h | ⟨filterPrice, hfilter, h⟩ := bind_eq_error_iff.1 h
  · exact overflowsOnly_money _ error h hoverflow
  rw [hfilter, ok_bind]
  obtain hwith | ⟨withFilter, hwith, h⟩ := bind_eq_error_iff.1 h
  · obtain ⟨rfl, -⟩ := eq_overflow_of_reckoned hwith
    exact .inl ⟨_, bind_eq_error_iff.2 (.inl hwith)⟩
  rw [hwith, ok_bind]
  obtain h | ⟨accessoryPrice, haccessory, h⟩ := bind_eq_error_iff.1 h
  · exact overflowsOnly_money _ error h hoverflow
  rw [haccessory, ok_bind]
  obtain hunit | ⟨unitPrice, hunit, h⟩ := bind_eq_error_iff.1 h
  · obtain ⟨rfl, -⟩ := eq_overflow_of_reckoned hunit
    exact .inl ⟨_, hunit⟩
  refine .inr ⟨unitPrice, hunit, fun factor discounted hfactor hdiscounted ↦ ?_⟩
  rw [reckoned_eq_ok_iff.2 hfactor, ok_bind, reckoned_eq_ok_iff.2 hdiscounted, ok_bind] at h
  obtain h | ⟨total, -, h⟩ := bind_eq_error_iff.1 h
  · exact (eq_overflow_of_reckoned h).2
  · cases h

/-- Under a discount of 0 to 100 percent the amounts of every line are in their bounds, and a quote
overflows only if the id of the row of a product without dimensions does, or the unit price or the
full price of its line. -/
theorem quote_isBounded {catalog : Catalog Float} {options : EngineOptions}
    (he : build catalog options = .ok e) (r : QuoteRequest) (hdiscount : r.discount.IsPercentage) :
    (∀ item, e.quote r = .ok item → item.IsBounded) ∧
      ∀ error, e.quote r = .error error → error.overflow? ≠ none →
        e.SlotOverflows (Text.trimmed r.code.model) ∨
          ∃ line, e.priceLine r = .ok line ∧ line.Overflows r.quantity := by
  have hminimum := isNonneg_minimum_of_build he
  obtain ⟨factor, hfactor, hpart, hle⟩ := Decimal.exists_factor hdiscount
  constructor
  · intro item h
    obtain ⟨line, factor', hline, hunit, hfactor', hdiscounted, htotal⟩ :=
      exists_amounts_of_quote h
    obtain rfl := Option.some.inj (hfactor.symm.trans hfactor')
    have hamount := isAmount_unitPrice (isNonneg_of_priceLine hminimum hline) hunit
    obtain ⟨discounted, hdiscounted', hamount', hdiscounted_le⟩ :=
      Decimal.exists_mul?_of_le_one hamount hpart hle
    obtain rfl := Option.some.inj (hdiscounted.symm.trans hdiscounted')
    have hquantity : 0 ≤ (Decimal.ofInt item.quantity).coefficient := Int.natCast_nonneg _
    have htotal_nonneg := Decimal.value_nonneg
      (Decimal.isRounded_mul? hamount'.nonneg hquantity htotal).isAmount.nonneg
    refine ⟨Decimal.value_nonneg hamount'.nonneg, hdiscounted_le, htotal_nonneg,
      fun full hfull ↦ ?_, Decimal.total_le_mul hamount hamount' hdiscounted_le htotal⟩
    obtain ⟨total, htotal', htotal_le⟩ :=
      Decimal.exists_total hamount hamount' hdiscounted_le hfull
    rwa [Option.some.inj (htotal.symm.trans htotal')]
  · intro error h hoverflow
    obtain hslot | ⟨line, hline, hunit | ⟨unitPrice, hunit, htotal⟩⟩ :=
      exists_line_of_overflow h hoverflow
    · exact .inl hslot
    · exact .inr ⟨line, hline, .inl hunit⟩
    · refine .inr ⟨line, hline, .inr ⟨unitPrice, hunit, ?_⟩⟩
      have hamount := isAmount_unitPrice (isNonneg_of_priceLine hminimum hline) hunit
      obtain ⟨discounted, hdiscounted, hamount', hdiscounted_le⟩ :=
        Decimal.exists_mul?_of_le_one hamount hpart hle
      have hnone := htotal factor discounted hfactor hdiscounted
      rw [Option.eq_none_iff_forall_ne_some]
      intro full hfull
      obtain ⟨total, hsome, -⟩ := Decimal.exists_total hamount hamount' hdiscounted_le hfull
      rw [hnone] at hsome
      cases hsome

/-- A model at 500 with a tiny rate for what is wider than 10 inches. -/
def wide : Engine where
  catalog := {
    products := some [⟨1, 1, "R", none, none, none, none, none⟩]
    prices := some [⟨1, 1, some 10, some 10, some 500, none, none⟩]
    rowMultipliers := some []
    columnMultipliers := some [⟨1, 10, some 1e-10, none⟩] }
  options := .standard
  overrides := ⟨[.standard], [("VD", 0)]⟩

/-- So many items of the model, 10 inches high, at a discount. -/
def wideRequest (accessory : Bool) (quantity : ℕ) (discount : Decimal) (width : Float) :
    QuoteRequest where
  code := ⟨"R", false, accessory, none⟩
  finish := none
  quantity
  discount
  specialColorMultiplier := none
  dimensions := .rectangular ⟨width, .inches⟩ ⟨10, .inches⟩

/-- The discounted unit price and the total of a quote. -/
def amounts? (answer : Except QuoteError QuoteItem) : Option (Decimal × Decimal) :=
  answer.toOption.map fun item ↦ (item.discountedUnitPrice, item.total)

/-- The operation in which a quote overflows. -/
def overflow? (answer : Except QuoteError QuoteItem) : Option String :=
  match answer with
  | .error (.overflow operation) => some operation
  | _ => none

theorem eq_error_of_overflow? {answer : Except QuoteError QuoteItem} {operation : String}
    (h : overflow? answer = some operation) : answer = .error (.overflow operation) := by
  unfold overflow? at h
  split at h
  · rw [Option.some.inj h]
  · cases h

theorem build_wide : build wide.catalog .standard = .ok wide := rfl

theorem isPercentage_eighth : Decimal.IsPercentage ⟨125, 1⟩ where
  nonneg := by decide
  lt_limit := by decide
  scale_le := by decide
  le_hundred := by norm_num [Decimal.value]

theorem exists_quote_wide (quantity : ℕ) (discount : Decimal) (amounts : Decimal × Decimal)
    (h : amounts? (wide.quote (wideRequest false quantity discount 10)) = some amounts) :
    ∃ item, wide.quote (wideRequest false quantity discount 10) = .ok item ∧
      (item.discountedUnitPrice, item.total) = amounts := by
  obtain ⟨item, hitem, hamounts⟩ := Option.map_eq_some_iff.1 h
  exact ⟨item, eq_ok_of_toOption hitem, hamounts⟩

/-- Three items at 500 less an eighth. -/
theorem quote_isBounded_eighth : build wide.catalog .standard = .ok wide ∧
    Decimal.IsPercentage ⟨125, 1⟩ ∧
    ∃ item, wide.quote (wideRequest false 3 ⟨125, 1⟩ 10) = .ok item ∧
      (item.discountedUnitPrice, item.total) = (⟨437500, 3⟩, ⟨1312500, 3⟩) ∧ item.IsBounded := by
  obtain ⟨item, hitem, hamounts⟩ :=
    exists_quote_wide 3 ⟨125, 1⟩ (⟨437500, 3⟩, ⟨1312500, 3⟩) (by decide +kernel)
  exact ⟨build_wide, isPercentage_eighth, item, hitem, hamounts,
    (quote_isBounded build_wide (wideRequest false 3 ⟨125, 1⟩ 10) isPercentage_eighth).1 item hitem⟩

/-- A discount of 150 percent sells below zero, and a wide screen without any discount overflows. -/
theorem quote_unbounded : build wide.catalog .standard = .ok wide ∧
    (∃ item, wide.quote (wideRequest false 1 ⟨150, 0⟩ 10) = .ok item ∧ item.total.value < 0) ∧
    wide.quote (wideRequest true 1000 ⟨0, 0⟩ 1e27) = .error (.overflow "Multiplication") := by
  obtain ⟨item, hitem, hamounts⟩ :=
    exists_quote_wide 1 ⟨150, 0⟩ (⟨-25000, 2⟩, ⟨-25000, 2⟩) (by decide +kernel)
  have htotal : item.total = ⟨-25000, 2⟩ := congrArg Prod.snd hamounts
  refine ⟨build_wide, ⟨item, hitem, ?_⟩, eq_error_of_overflow? (by decide +kernel)⟩
  rw [htotal]
  norm_num [Decimal.value]

end Engine

end Ventilation
