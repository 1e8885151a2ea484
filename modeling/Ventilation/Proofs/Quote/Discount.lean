import Ventilation.Proofs.Quote.UnitPrice

/-!
# Exact discounts

A discount of at most two decimals is taken off without rounding. A unit price below 10 ^ 13 has at
most fifteen digits, the factor of the discount has four decimals, and a quantity of 32 bits has ten
digits, so that the total needs fewer than 96 bits.
-/

set_option autoImplicit false
set_option relaxedAutoImplicit false

namespace Ventilation

namespace Decimal

variable {a b : Decimal} {x : ℚ}

/-! ### Results that fit -/

/-- A value that fits with all its decimals is not rounded. -/
theorem IsRounded.value_eq (h : IsRounded x a) {n s : ℕ} (hx : x * 10 ^ s = n) (hn : n < limit)
    (hs : s ≤ maxScale) : a.value = x := by
  have hpos : (0 : ℚ) < 10 ^ s := by positivity
  have hx' : 0 ≤ x := nonneg_of_mul_nonneg_left (hx ▸ n.cast_nonneg) hpos
  by_cases hscale : s ≤ a.scale
  · obtain ⟨m, hm⟩ : ∃ m : ℕ, x * 10 ^ a.scale = m := by
      refine ⟨n * 10 ^ (a.scale - s), ?_⟩
      rw [Nat.cast_mul, ← hx, mul_assoc, Nat.cast_pow, Nat.cast_ofNat, ← pow_add,
        Nat.add_sub_cancel' hscale]
    have hcoefficient := h.coefficient_eq
    rw [hm, roundEven_natCast] at hcoefficient
    rw [value, hcoefficient, Int.cast_natCast, ← hm, mul_div_cancel_right₀ x (by positivity)]
  · rcases h.maximal with hexact | hfull | hnext
    · exact hexact
    · omega
    · -- one decimal more is no more than all decimals, for which there is room
      have hle : x * 10 ^ (a.scale + 1) ≤ n := by
        rw [← hx]
        exact mul_le_mul_of_nonneg_left (pow_le_pow_right₀ (by norm_num) (by omega)) hx'
      have := roundEven_le_natCast (by positivity) hle
      omega

/-- A product that fits with all its decimals is exact. -/
theorem exists_mul?_of_fits (ha : 0 ≤ a.coefficient) (hb : 0 ≤ b.coefficient) {n s : ℕ}
    (hproduct : a.value * b.value * 10 ^ s = n) (hn : n < limit) (hs : s ≤ maxScale) :
    ∃ c, a.mul? b = some c ∧ c.IsAmount ∧ c.value = a.value * b.value := by
  have hnonneg : 0 ≤ a.value * b.value := mul_nonneg (value_nonneg ha) (value_nonneg hb)
  have hle : a.value * b.value ≤ n := by
    rw [← hproduct]
    exact le_mul_of_one_le_right hnonneg (one_le_pow₀ (by norm_num))
  obtain ⟨c, hc⟩ := (exists_mul?_iff ha hb).2 ((roundEven_le_natCast hnonneg hle).trans_lt hn)
  have hrounded := isRounded_mul? ha hb hc
  exact ⟨c, hc, hrounded.isAmount, hrounded.value_eq hproduct hn hs⟩

/-! ### The hundredth part of a discount -/

/-- A discount from 0 to 100 percent that has at most two decimals, zeros at its end apart. -/
structure IsDiscount (a : Decimal) : Prop extends a.IsPercentage where
  exists_cents : ∃ n : ℕ, a.value * 10 ^ 2 = n

/-- The value of a coefficient and a scale. -/
def pairValue (amount : ℕ × ℕ) : ℚ := amount.1 / 10 ^ amount.2

theorem pairValue_div {coefficient scale count : ℕ} (hcount : count ≤ scale)
    (hzeros : coefficient % tenTo count = 0) :
    pairValue (coefficient / tenTo count, scale - count) = pairValue (coefficient, scale) := by
  have hpow : (10 : ℚ) ^ scale = tenTo count * 10 ^ (scale - count) := by
    rw [Binary64.cast_tenTo, ← pow_add, Nat.add_sub_cancel' hcount]
  have hcoefficient : (coefficient : ℚ) = tenTo count * (coefficient / tenTo count : ℕ) := by
    exact_mod_cast (Nat.mul_div_cancel' (Nat.dvd_of_mod_eq_zero hzeros)).symm
  have hunit : (tenTo count : ℚ) ≠ 0 := by
    rw [Binary64.cast_tenTo]
    positivity
  unfold pairValue
  simp only
  rw [hpow, hcoefficient, mul_div_mul_left _ _ hunit]

theorem pairValue_dropZeros (count : ℕ) (amount : ℕ × ℕ) :
    pairValue (dropZeros count amount) = pairValue amount := by
  unfold dropZeros
  split
  · next hzeros =>
    rw [Bool.and_eq_true, decide_eq_true_eq, decide_eq_true_eq] at hzeros
    exact pairValue_div hzeros.1 hzeros.2
  · rfl

theorem pairValue_dropEights (coefficient scale : ℕ) :
    pairValue (dropEights coefficient scale) = pairValue (coefficient, scale) := by
  fun_induction dropEights coefficient scale with
  | case1 coefficient scale hzeros ih => exact ih.trans (pairValue_div hzeros.1 hzeros.2.2)
  | case2 => rfl

theorem pairValue_div_hundred {n : ℕ} (scale : ℕ) (h : n % 100 = 0) :
    pairValue (n / 100, scale) = pairValue (n, scale) / 100 := by
  have hn : (n : ℚ) = (n / 100 : ℕ) * 100 := by
    exact_mod_cast (Nat.div_mul_cancel (Nat.dvd_of_mod_eq_zero h)).symm
  unfold pairValue
  simp only
  rw [hn, div_right_comm, mul_div_cancel_right₀ _ (by norm_num)]

/-- With room for nine more decimals the division by 100 comes to its end. -/
theorem pairValue_divideOn {n scale : ℕ} (hrest : n % 100 ≠ 0) (hscale : scale + 9 ≤ maxScale)
    (hroom : n * 10 ^ 7 < limit) :
    pairValue (divideOn (n / 100) (n % 100) scale) = pairValue (n, scale) / 100 := by
  have hquotient : n / 100 * tenTo 9 + n % 100 * tenTo 9 / 100 = n * 10 ^ 7 := by
    change n / 100 * 10 ^ 9 + n % 100 * 10 ^ 9 / 100 = n * 10 ^ 7
    omega
  have hremainder : n % 100 * tenTo 9 % 100 = 0 := by
    change n % 100 * 10 ^ 9 % 100 = 0
    omega
  have hfind : [9, 8, 7, 6, 5, 4, 3, 2, 1].find? (fun k ↦ decide (scale + k ≤ maxScale) &&
      decide (n / 100 * tenTo k + n % 100 * tenTo k / 100 < limit)) = some 9 := by
    rw [List.find?_cons_of_pos]
    rw [hquotient, decide_eq_true hscale, decide_eq_true hroom]
    rfl
  rw [divideOn, if_neg hrest]
  simp only
  split
  · next k hk =>
    obtain rfl : 9 = k := Option.some.inj (hfind.symm.trans hk)
    rw [divideOn, if_pos hremainder, hquotient]
    unfold pairValue
    push_cast
    rw [pow_add]
    field_simp
    ring
  · next hk =>
    rw [hfind] at hk
    cases hk

theorem IsDiscount.value_hundredth (h : a.IsDiscount) : a.hundredth.value = a.value / 100 := by
  obtain ⟨n, hn⟩ := Int.eq_ofNat_of_zero_le h.nonneg
  have hvalue : a.value = pairValue (n, a.scale) := by
    rw [value, hn, Int.cast_natCast]
    rfl
  have hpair {amount : ℕ × ℕ} (hpos : n ≠ 0) (h : pairValue amount = pairValue (n, a.scale) / 100) :
      (⟨withSign n amount.1, amount.2⟩ : Decimal).value = a.value / 100 := by
    rw [withSign_natCast fun hzero ↦ absurd hzero hpos, hvalue, ← h, value, Int.cast_natCast]
    rfl
  unfold Decimal.hundredth
  simp only [hn, Int.natAbs_natCast]
  split
  · next hzero => rw [value_zero, hvalue, hzero, pairValue, Nat.cast_zero, zero_div, zero_div]
  · next hpos =>
    split
    · next hwhole => exact hpair hpos (pairValue_div_hundred a.scale hwhole)
    · next hrest =>
      -- further decimals would be zeros, which the division would have taken whole
      have hscale : a.scale ≤ 3 := by
        by_contra hlong
        obtain ⟨cents, hcents⟩ := h.exists_cents
        obtain ⟨k, hk⟩ := Nat.exists_eq_add_of_le (Nat.lt_of_not_le hlong)
        have hdigits : n = 10 ^ (k + 2) * cents := by
          have hpow : (10 : ℚ) ^ a.scale = 10 ^ (k + 2) * 10 ^ 2 := by
            rw [← pow_add, hk]
            congr 1
            omega
          have hcast : (n : ℚ) = 10 ^ (k + 2) * cents := by
            rw [← Int.cast_natCast, ← hn, ← value_mul_pow, hpow, ← hcents]
            ring
          exact_mod_cast hcast
        rw [hdigits, pow_add, mul_comm (10 ^ k), mul_assoc] at hrest
        exact hrest (Nat.mul_mod_right 100 _)
      have hle : n ≤ 10 ^ 5 := by
        have hhundred := value_le_iff.1 h.le_hundred
        have hpow : (10 : ℚ) ^ a.scale ≤ 10 ^ 3 := pow_le_pow_right₀ (by norm_num) hscale
        rw [hn, Int.cast_natCast] at hhundred
        have hcast : (n : ℚ) ≤ 10 ^ 5 := by linarith
        exact_mod_cast hcast
      have hroom : n * 10 ^ 7 < limit :=
        (Nat.mul_le_mul_right _ hle).trans_lt (by decide)
      refine hpair hpos ?_
      rw [pairValue_dropZeros, pairValue_dropZeros, pairValue_dropZeros, pairValue_dropEights]
      exact pairValue_divideOn hrest (by unfold maxScale; omega) hroom

/-- What an exact hundredth part leaves of one is exact. -/
theorem IsDiscount.exists_factor (h : a.IsDiscount) :
    ∃ factor, (ofInt 1).sub? a.hundredth = some factor ∧ factor.IsAmount ∧
      factor.value = 1 - a.value / 100 := by
  obtain ⟨hpart, hle⟩ := h.hundredth
  obtain ⟨factor, hfactor, hamount, hvalue⟩ := exists_sub?_of_value_le_one hpart hle
  exact ⟨factor, hfactor, hamount, by rw [hvalue, h.value_hundredth]⟩

end Decimal

/-! ### Exact amounts -/

/-- The same order for another quantity and at another discount. -/
def QuoteRequest.ordered (r : QuoteRequest) (quantity : ℕ) (discount : Decimal) : QuoteRequest :=
  { r with quantity, discount }

/-- Each step from the unit price to the total is exact: the hundredth part of the discount, the
factor it leaves, the discounted unit price and the total. -/
structure QuoteItem.IsExact (item : QuoteItem) : Prop where
  hundredth_eq : item.discount.hundredth.value = item.discount.value / 100
  exists_factor : ∃ factor, (Decimal.ofInt 1).sub? item.discount.hundredth = some factor ∧
    factor.value = 1 - item.discount.value / 100 ∧
    item.unitPrice.mul? factor = some item.discountedUnitPrice
  discounted_eq : item.discountedUnitPrice.value =
    item.unitPrice.value * (1 - item.discount.value / 100)
  mul_quantity : item.discountedUnitPrice.mul? (Decimal.ofInt item.quantity) = some item.total
  total_eq : item.total.value =
    item.unitPrice.value * (1 - item.discount.value / 100) * item.quantity

namespace Engine

variable {e : Engine} {r : QuoteRequest} {item : QuoteItem}

/-- A unit price has no more than two decimals. -/
theorem exists_cents_of_quote (he : Binary64.IsNonneg e.options.accessory.minimum)
    (h : e.quote r = .ok item) : ∃ n : ℕ, item.unitPrice.value * 10 ^ 2 = n := by
  obtain ⟨line, -, hline, -, hprice, hfilter, haccessory, -, -⟩ := exists_unitPrice_of_quote h
  have hnonneg := isNonneg_of_priceLine he hline
  have hfilter_nonneg := hnonneg.filterPrice.place_nonneg
  obtain ⟨p, hp⟩ := Decimal.exists_value_mul_pow (a := Decimal.ofInt line.priceAfterFinish)
    hnonneg.priceAfterFinish.nonneg (Nat.zero_le 2)
  obtain ⟨f, hf⟩ := Decimal.exists_value_mul_pow (isAmount_money hfilter_nonneg hfilter).nonneg
    (isShort_money hfilter_nonneg hfilter).2
  obtain ⟨s, hs⟩ := Decimal.exists_value_mul_pow
    (isAmount_money hnonneg.accessoryPrice haccessory).nonneg
    (isShort_money hnonneg.accessoryPrice haccessory).2
  refine ⟨p + f + s, ?_⟩
  rw [(addsUp_of_quote he h).unitPrice_eq, hprice, add_mul, add_mul, hp, hf, hs]
  push_cast
  rfl

/-- The amounts of a line make an item at any discount and for any quantity for which they can be
reckoned. -/
theorem exists_quote_ordered {line : PricedLine} {unitPrice factor discounted total : Decimal}
    {quantity : ℕ} {discount : Decimal} (hline : e.priceLine r = .ok line)
    (hunit : line.unitPrice = .ok unitPrice)
    (hfactor : (Decimal.ofInt 1).sub? discount.hundredth = some factor)
    (hdiscounted : unitPrice.mul? factor = some discounted)
    (htotal : discounted.mul? (Decimal.ofInt quantity) = some total) :
    ∃ sold, e.quote (r.ordered quantity discount) = .ok sold ∧ sold.quantity = quantity ∧
      sold.discount = discount ∧ sold.unitPrice = unitPrice ∧
      sold.discountedUnitPrice = discounted ∧ sold.total = total := by
  obtain ⟨filterPrice, hfilter, hunit⟩ := bind_eq_ok_iff.1 hunit
  obtain ⟨withFilter, hwith, hunit⟩ := bind_eq_ok_iff.1 hunit
  obtain ⟨accessoryPrice, haccessory, hunit⟩ := bind_eq_ok_iff.1 hunit
  have hsame : e.priceLine (r.ordered quantity discount) = .ok line := hline
  unfold quote
  rw [hsame, ok_bind, hfilter, ok_bind, hwith, ok_bind, haccessory, ok_bind, hunit, ok_bind]
  change ∃ sold, (reckoned _ ((Decimal.ofInt 1).sub? discount.hundredth) >>= _) = .ok sold ∧ _
  rw [hfactor]
  change ∃ sold, (reckoned _ (unitPrice.mul? factor) >>= _) = .ok sold ∧ _
  rw [hdiscounted]
  change ∃ sold, (reckoned _ (discounted.mul? (Decimal.ofInt quantity)) >>= _) = .ok sold ∧ _
  rw [htotal]
  exact ⟨_, rfl, rfl, rfl, rfl, rfl, rfl⟩

/-- With a unit price of at most fifteen digits the amounts of every order fit exactly. -/
theorem exists_exact_ordered (he : Binary64.IsNonneg e.options.accessory.minimum)
    (h : e.quote r = .ok item) (hlt : item.unitPrice.value < 10 ^ 13) {quantity : ℕ}
    {discount : Decimal} (hquantity : quantity < 2 ^ 32) (hdiscount : discount.IsDiscount) :
    ∃ sold, e.quote (r.ordered quantity discount) = .ok sold ∧ sold.quantity = quantity ∧
      sold.discount = discount ∧ sold.unitPrice = item.unitPrice ∧ sold.IsExact := by
  obtain ⟨line, -, hline, hunit, -, -, -⟩ := exists_amounts_of_quote h
  have hamount := isAmount_unitPrice (isNonneg_of_priceLine he hline) hunit
  obtain ⟨factor, hfactor, hpart, hvalue⟩ := hdiscount.exists_factor
  -- in places of 10 ^ -6 both products are whole numbers that fit
  obtain ⟨unit, hcents⟩ := exists_cents_of_quote he h
  obtain ⟨percent, hpercent⟩ := hdiscount.exists_cents
  have hunit_lt : unit < 10 ^ 15 := by
    have hcast : (unit : ℚ) < 10 ^ 15 := by linarith
    exact_mod_cast hcast
  have hpercent_le : percent ≤ 10 ^ 4 := by
    have hcast : (percent : ℚ) ≤ 10 ^ 4 := by linarith [hdiscount.le_hundred]
    exact_mod_cast hcast
  have hplaces : item.unitPrice.value * factor.value * 10 ^ 6 =
      (unit * (10 ^ 4 - percent) : ℕ) := by
    rw [hvalue, Nat.cast_mul, Nat.cast_sub hpercent_le, ← hcents, ← hpercent]
    push_cast
    ring
  have hplaces_lt : unit * (10 ^ 4 - percent) ≤ 10 ^ 15 * 10 ^ 4 :=
    Nat.mul_le_mul hunit_lt.le (Nat.sub_le _ _)
  obtain ⟨discounted, hdiscounted, hamount', hdiscounted_eq⟩ := Decimal.exists_mul?_of_fits
    hamount.nonneg hpart.nonneg hplaces (hplaces_lt.trans_lt (by decide)) (by decide)
  have htotal_places : discounted.value * (Decimal.ofInt quantity).value * 10 ^ 6 =
      (unit * (10 ^ 4 - percent) * quantity : ℕ) := by
    rw [Nat.cast_mul, ← hplaces, hdiscounted_eq, Decimal.value_ofInt, Int.cast_natCast]
    ring
  obtain ⟨total, htotal, -, htotal_eq⟩ := Decimal.exists_mul?_of_fits hamount'.nonneg
    (Int.natCast_nonneg quantity) htotal_places
    ((Nat.mul_le_mul hplaces_lt hquantity.le).trans_lt (by decide)) (by decide)
  obtain ⟨sold, hsold, hq, hd, hu, hdisc, htot⟩ :=
    exists_quote_ordered hline hunit hfactor hdiscounted htotal
  refine ⟨sold, hsold, hq, hd, hu, ?_, ⟨factor, ?_, ?_, ?_⟩, ?_, ?_, ?_⟩
  · rw [hd, hdiscount.value_hundredth]
  · rw [hd, hfactor]
  · rw [hd, hvalue]
  · rw [hu, hdisc, hdiscounted]
  · rw [hdisc, hu, hd, hdiscounted_eq, hvalue]
  · rw [hdisc, hq, htot, htotal]
  · rw [htot, hu, hd, hq, htotal_eq, hdiscounted_eq, hvalue, Decimal.value_ofInt, Int.cast_natCast]

theorem isDiscount_zero : Decimal.zero.IsDiscount where
  toIsAmount := Decimal.isRounded_zero.isAmount
  le_hundred := Decimal.value_zero.trans_le (by norm_num)
  exists_cents := ⟨0, by rw [Decimal.value_zero, zero_mul, Nat.cast_zero]⟩

/-- Discounted totals are exact. A model that is quoted at a unit price below 10 ^ 13 is quoted at
every discount of at most two decimals and for every quantity of 32 bits, at the same unit price and
with nothing rounded. So the total is linear in the discount: it does not grow with it, and it does
not fall when more items are ordered. -/
theorem quote_isExact {catalog : Catalog Float} {options : EngineOptions}
    (he : build catalog options = .ok e) (h : e.quote r = .ok item)
    (hlt : item.unitPrice.value < 10 ^ 13) :
    (∀ quantity < 2 ^ 32, ∀ discount : Decimal, discount.IsDiscount →
      ∃ sold, e.quote (r.ordered quantity discount) = .ok sold ∧ sold.quantity = quantity ∧
        sold.discount = discount ∧ sold.unitPrice = item.unitPrice ∧ sold.AddsUp ∧
        sold.IsExact) ∧
    (∀ quantity < 2 ^ 32, ∀ discount : Decimal, discount.IsDiscount → ∀ full sold,
      e.quote (r.ordered quantity .zero) = .ok full →
      e.quote (r.ordered quantity discount) = .ok sold →
      sold.total.value = full.total.value * (1 - discount.value / 100)) ∧
    ∀ less more, less ≤ more → more < 2 ^ 32 → ∀ high low : Decimal, high.IsDiscount →
      low.IsDiscount → low.value ≤ high.value → ∀ cheap dear,
      e.quote (r.ordered less high) = .ok cheap → e.quote (r.ordered more low) = .ok dear →
      cheap.total.value ≤ dear.total.value := by
  have hminimum := isNonneg_minimum_of_build he
  have htotal {quantity : ℕ} {discount : Decimal} {sold : QuoteItem} (hquantity : quantity < 2 ^ 32)
      (hdiscount : discount.IsDiscount) (hsold : e.quote (r.ordered quantity discount) = .ok sold) :
      sold.total.value = item.unitPrice.value * (1 - discount.value / 100) * quantity := by
    obtain ⟨sold', hsold', hq, hd, hu, hexact⟩ :=
      exists_exact_ordered hminimum h hlt hquantity hdiscount
    obtain rfl := Except.ok.inj (hsold.symm.trans hsold')
    rw [hexact.total_eq, hu, hd, hq]
  refine ⟨fun quantity hquantity discount hdiscount ↦ ?_,
    fun quantity hquantity discount hdiscount full sold hfull hsold ↦ ?_,
    fun less more hle hmore high low hhigh hlow hvalue cheap dear hcheap hdear ↦ ?_⟩
  · obtain ⟨sold, hsold, hq, hd, hu, hexact⟩ :=
      exists_exact_ordered hminimum h hlt hquantity hdiscount
    exact ⟨sold, hsold, hq, hd, hu, addsUp_of_quote hminimum hsold, hexact⟩
  · rw [htotal hquantity hdiscount hsold, htotal hquantity isDiscount_zero hfull,
      Decimal.value_zero]
    ring
  · rw [htotal (hle.trans_lt hmore) hhigh hcheap, htotal hmore hlow hdear]
    obtain ⟨line, -, hline, hunit, -, -, -⟩ := exists_amounts_of_quote h
    have hunit_nonneg := Decimal.value_nonneg
      (isAmount_unitPrice (isNonneg_of_priceLine hminimum hline) hunit).nonneg
    have hlow_nonneg : 0 ≤ 1 - low.value / 100 := by linarith [hlow.le_hundred]
    have hfactor : 1 - high.value / 100 ≤ 1 - low.value / 100 := by linarith
    exact mul_le_mul (mul_le_mul_of_nonneg_left hfactor hunit_nonneg) (Nat.cast_le.2 hle)
      (Nat.cast_nonneg less) (mul_nonneg hunit_nonneg hlow_nonneg)

/-- An eighth off the largest order of a model at 500. -/
theorem quote_isExact_wide : build wide.catalog .standard = .ok wide ∧
    Decimal.IsDiscount ⟨125, 1⟩ ∧
    (∃ item, wide.quote (wideRequest false 1 ⟨0, 0⟩ 10) = .ok item ∧
      item.unitPrice.value < 10 ^ 13) ∧
    ∃ sold, wide.quote (wideRequest false 4294967295 ⟨125, 1⟩ 10) = .ok sold ∧ sold.IsExact := by
  obtain ⟨item, hitem, hunit⟩ := Option.map_eq_some_iff.1 (show
    (wide.quote (wideRequest false 1 ⟨0, 0⟩ 10)).toOption.map QuoteItem.unitPrice =
      some ⟨500, 0⟩ by decide +kernel)
  have hquote := eq_ok_of_toOption hitem
  have hlt : item.unitPrice.value < 10 ^ 13 := by
    rw [hunit]
    norm_num [Decimal.value]
  have hdiscount : Decimal.IsDiscount ⟨125, 1⟩ :=
    { isPercentage_eighth with exists_cents := ⟨1250, by norm_num [Decimal.value]⟩ }
  obtain ⟨hexact, -, -⟩ := quote_isExact build_wide hquote hlt
  obtain ⟨sold, hsold, -, -, -, -, hsold_exact⟩ :=
    hexact 4294967295 (by decide) ⟨125, 1⟩ hdiscount
  exact ⟨build_wide, hdiscount, ⟨item, hquote, hlt⟩, sold, hsold, hsold_exact⟩

end Engine

end Ventilation
