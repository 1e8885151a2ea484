import Mathlib.Data.Int.Interval
import Mathlib.Data.Set.Card
import Mathlib.Order.Interval.Set.OrdConnected
import Ventilation.Proofs.Catalog.SlotId

/-!
# Rows by position

The row of a product without dimensions is found by adding: the product stands as far from the
first product of its table as its row from the first row without dimensions. Where the products and
the rows of the table have ids without gaps, this takes the nth product to the nth row. With gaps
two products of a table still have two ids of rows, in the order of the products, as long as the id
for the later one fits 64 bits. If it does not, the later product has no row but an overflow.
-/

set_option autoImplicit false
set_option relaxedAutoImplicit false

namespace Ventilation

/-! ### Places among ids -/

/-- The element of a set of ids with `n` smaller ones. -/
def IsNth (ids : Set Int) (n : ℕ) (id : Int) : Prop :=
  id ∈ ids ∧ (ids ∩ Set.Iio id).ncard = n

section Consecutive

variable {ids : Set Int} {first id : Int} {n : ℕ}

theorem ncard_Ico_int (a b : Int) : (Set.Ico a b).ncard = (b - a).toNat := by
  rw [← Finset.coe_Ico, Set.ncard_coe_finset, Int.card_Ico]

/-- Of consecutive ids, those below one of them are all those from the first to it. -/
theorem inter_Iio_eq_Ico (hids : ids.OrdConnected) (hfirst : IsLeast ids first) (hid : id ∈ ids) :
    ids ∩ Set.Iio id = Set.Ico first id := by
  ext other
  constructor
  · rintro ⟨hother, hlt⟩
    exact ⟨hfirst.2 hother, hlt⟩
  · rintro ⟨hle, hlt⟩
    exact ⟨hids.out hfirst.1 hid ⟨hle, le_of_lt hlt⟩, hlt⟩

theorem isNth_iff_of_consecutive (hids : ids.OrdConnected) (hfirst : IsLeast ids first) :
    IsNth ids n id ↔ id ∈ ids ∧ id = first + n := by
  unfold IsNth
  refine and_congr_right fun hid ↦ ?_
  have hle : first ≤ id := hfirst.2 hid
  rw [inter_Iio_eq_Ico hids hfirst hid, ncard_Ico_int]
  omega

/-- Among more than `n` consecutive ids there is the one `n` steps from the first. -/
theorem add_mem_of_lt_ncard (hids : ids.OrdConnected) (hfirst : IsLeast ids first)
    (hn : n < ids.ncard) : first + n ∈ ids := by
  by_contra hout
  -- Whatever lies beyond the gap would make the gap one of the ids.
  have hsub : ids ⊆ Set.Ico first (first + n) := by
    intro other hother
    refine ⟨hfirst.2 hother, ?_⟩
    by_contra hle
    exact hout (hids.out hfirst.1 hother ⟨by omega, not_lt.1 hle⟩)
  have hcard := Set.ncard_le_ncard hsub (Set.finite_Ico _ _)
  rw [ncard_Ico_int] at hcard
  omega

end Consecutive

namespace Catalog

variable {c : Catalog Float} {model : String} {product : Product} {first start : Int}

/-! ### The id of the row of a product -/

/-- Every product and every row has an id that its column can hold. -/
structure HoldsIds (c : Catalog Float) : Prop where
  product : ∀ p ∈ c.products.getD [], p.productId ∈ idRange
  row : ∀ row ∈ c.prices.getD [], row.priceId ∈ idRange

/-- The ids of the rows of a table. -/
def rowIds (c : Catalog Float) (tableId : Int) : Set Int :=
  {id | ∃ row ∈ c.prices.getD [], row.tableId = tableId ∧ row.priceId = id}

theorem bareIds_subset_rowIds (c : Catalog Float) (tableId : Int) :
    c.bareIds tableId ⊆ c.rowIds tableId := by
  rintro id ⟨row, hrow, htable, -, -, hid⟩
  exact ⟨row, hrow, htable, hid⟩

theorem exists_isLeast_of_bare (hproduct : c.product? model = .ok (some product))
    (hbare : (c.bareIds product.tableId).Nonempty) :
    ∃ first start, IsLeast (c.productIds product.tableId) first ∧
      IsLeast (c.bareIds product.tableId) start := by
  obtain ⟨hempty, -⟩ | ⟨first, start, hfirst, hstart, -⟩ := dimensionlessPriceId?_cases hproduct
  · exact absurd hempty hbare.ne_empty
  · exact ⟨first, start, hfirst, hstart⟩

theorem HoldsIds.of_mem_rowIds (hc : c.HoldsIds) {id tableId : Int}
    (h : id ∈ c.rowIds tableId) : id ∈ idRange := by
  obtain ⟨row, hrow, -, rfl⟩ := h
  exact hc.row row hrow

/-- In a table without gaps, whose first row has no dimensions, the nth product has the nth row. Its
distance from the first product is `n` and has to fit as well. -/
theorem exists_isNth_of_consecutive (hc : c.HoldsIds) {n : ℕ}
    (hproduct : c.product? model = .ok (some product))
    (hproducts : (c.productIds product.tableId).OrdConnected)
    (hrows : (c.rowIds product.tableId).OrdConnected)
    (hbare : start ∈ c.bareIds product.tableId) (hstart : IsLeast (c.rowIds product.tableId) start)
    (hnth : IsNth (c.productIds product.tableId) n product.productId)
    (hn : n < (c.rowIds product.tableId).ncard) :
    (n < 2 ^ 63 → ∃ id, c.dimensionlessPriceId? model = .ok (some id) ∧
      IsNth (c.rowIds product.tableId) n id) ∧
    (2 ^ 63 ≤ n → ∃ operation, c.dimensionlessPriceId? model = .error (.overflow operation)) := by
  have hleast : IsLeast (c.bareIds product.tableId) start :=
    ⟨hbare, fun _ hid ↦ hstart.2 (bareIds_subset_rowIds c _ hid)⟩
  obtain ⟨first, -, hfirst, -⟩ := exists_isLeast_of_bare hproduct ⟨start, hbare⟩
  obtain ⟨-, hplace⟩ := (isNth_iff_of_consecutive hproducts hfirst).1 hnth
  have hdistance : product.productId - first = n := by omega
  have hmem : start + n ∈ c.rowIds product.tableId := add_mem_of_lt_ncard hrows hstart hn
  constructor
  · intro hsmall
    have hfits : ShiftFits start first product.productId := by
      unfold ShiftFits
      rw [hdistance]
      exact ⟨⟨by omega, by exact_mod_cast hsmall⟩, hc.of_mem_rowIds hmem⟩
    refine ⟨start + n, ?_, (isNth_iff_of_consecutive hrows hstart).2 ⟨hmem, rfl⟩⟩
    rw [dimensionlessPriceId?_eq_ok hproduct hfirst hleast hfits, hdistance]
  · intro hlarge
    refine (exists_overflow_iff hproduct).2 ⟨first, start, hfirst, hleast, fun hfits ↦ ?_⟩
    obtain ⟨⟨-, hhigh⟩, -⟩ := hfits
    omega

/-- A later product is farther from the first one: if its distance and sum fit, so do those of the
earlier one. -/
theorem ShiftFits.of_le {id id' : Int} (h : ShiftFits start first id') (hstart : start ∈ idRange)
    (hfirst : first ≤ id) (hle : id ≤ id') : ShiftFits start first id := by
  obtain ⟨⟨-, hdistance⟩, -, hsum⟩ := h
  obtain ⟨hlow, -⟩ := hstart
  exact ⟨⟨by omega, by omega⟩, by omega, by omega⟩

/-- The rows of products follow the products by position: in a table without gaps whose first row
has no dimensions the nth product has the nth row, for every n that an id can hold. With gaps or
without, two products of a table with such a row have ids of rows in the order of the products,
unless that of the later one overflows. -/
theorem dimensionlessPriceId?_by_position (c : Catalog Float) (hc : c.HoldsIds) :
    (∀ model product (n : ℕ), c.product? model = .ok (some product) →
      (c.productIds product.tableId).OrdConnected → (c.rowIds product.tableId).OrdConnected →
      (∃ start ∈ c.bareIds product.tableId, IsLeast (c.rowIds product.tableId) start) →
      IsNth (c.productIds product.tableId) n product.productId →
      n < (c.rowIds product.tableId).ncard →
      (n < 2 ^ 63 → ∃ id, c.dimensionlessPriceId? model = .ok (some id) ∧
        IsNth (c.rowIds product.tableId) n id) ∧
      (2 ^ 63 ≤ n → ∃ operation,
        c.dimensionlessPriceId? model = .error (.overflow operation))) ∧
    (∀ model model' product product', c.product? model = .ok (some product) →
      c.product? model' = .ok (some product') → product.tableId = product'.tableId →
      product.productId < product'.productId → (c.bareIds product.tableId).Nonempty →
      (¬ c.IdOverflows product' → ∃ id id', c.dimensionlessPriceId? model = .ok (some id) ∧
        c.dimensionlessPriceId? model' = .ok (some id') ∧ id < id') ∧
      (c.IdOverflows product' → ∃ operation,
        c.dimensionlessPriceId? model' = .error (.overflow operation))) := by
  constructor
  · rintro model product n hproduct hproducts hrows ⟨start, hbare, hstart⟩ hnth hn
    exact exists_isNth_of_consecutive hc hproduct hproducts hrows hbare hstart hnth hn
  · intro model model' product product' hproduct hproduct' htable hlt hbare
    refine ⟨fun hfit ↦ ?_, (exists_overflow_iff hproduct').2⟩
    obtain ⟨first, start, hfirst, hstart⟩ := exists_isLeast_of_bare hproduct hbare
    have hfirst' : IsLeast (c.productIds product'.tableId) first := htable ▸ hfirst
    have hstart' : IsLeast (c.bareIds product'.tableId) start := htable ▸ hstart
    have hfits' : ShiftFits start first product'.productId := by
      by_contra hfits
      exact hfit ⟨first, start, hfirst', hstart', hfits⟩
    have hle : first ≤ product.productId := hfirst.2 (mem_productIds_of_product? hproduct)
    have hfits := hfits'.of_le (hc.of_mem_rowIds (bareIds_subset_rowIds c _ hstart.1)) hle hlt.le
    exact ⟨_, _, dimensionlessPriceId?_eq_ok hproduct hfirst hstart hfits,
      dimensionlessPriceId?_eq_ok hproduct' hfirst' hstart' hfits', by omega⟩

/-- Two products of table 1, the second with a given id, and two rows for them. -/
def pairOfSlots (second : Int) : Catalog Float where
  products := some [⟨1, 1, "2 SLOT", none, none, none, none, none⟩,
    ⟨second, 1, "4 SLOT", none, none, none, none, none⟩]
  prices := some [⟨2, 1, none, none, some 100, none, none⟩,
    ⟨3, 1, none, none, some 200, none, none⟩]
  rowMultipliers := some []
  columnMultipliers := some []

theorem productIds_pairOfSlots (second : Int) :
    (pairOfSlots second).productIds 1 = {1, second} := by
  ext id
  simp [productIds, pairOfSlots, eq_comm]

theorem bareIds_pairOfSlots (second : Int) : (pairOfSlots second).bareIds 1 = {2, 3} := by
  ext id
  simp [bareIds, pairOfSlots, eq_comm]

theorem rowIds_pairOfSlots (second : Int) : (pairOfSlots second).rowIds 1 = Set.Icc 2 3 := by
  ext id
  simp only [rowIds, pairOfSlots, Option.getD_some, List.mem_cons, List.not_mem_nil, or_false,
    exists_eq_or_imp, exists_eq_left, true_and, Set.mem_ofPred_eq, Set.mem_Icc]
  omega

theorem holdsIds_pairOfSlots {second : Int} (h : second ∈ idRange) :
    (pairOfSlots second).HoldsIds where
  product := by
    simp only [pairOfSlots, Option.getD_some, List.forall_mem_cons]
    exact ⟨by decide, h, fun _ hnil ↦ by cases hnil⟩
  row := by
    simp only [pairOfSlots, Option.getD_some, List.forall_mem_cons]
    exact ⟨by decide, by decide, fun _ hnil ↦ by cases hnil⟩

/-- The second of two products has the second of two rows, and after a gap among the products still
a later one than the first. -/
theorem dimensionlessPriceId?_by_position_pair :
    (∃ id, (pairOfSlots 2).dimensionlessPriceId? "4 SLOT" = .ok (some id) ∧
      IsNth ((pairOfSlots 2).rowIds 1) 1 id) ∧
    ∃ id id', (pairOfSlots 5).dimensionlessPriceId? "2 SLOT" = .ok (some id) ∧
      (pairOfSlots 5).dimensionlessPriceId? "4 SLOT" = .ok (some id') ∧ id < id' := by
  obtain ⟨hplace, -⟩ :=
    dimensionlessPriceId?_by_position (pairOfSlots 2) (holdsIds_pairOfSlots (by decide))
  obtain ⟨-, horder⟩ :=
    dimensionlessPriceId?_by_position (pairOfSlots 5) (holdsIds_pairOfSlots (by decide))
  constructor
  · have hproducts : (pairOfSlots 2).productIds 1 = Set.Icc 1 2 := by
      rw [productIds_pairOfSlots]
      ext id
      simp only [Set.mem_insert_iff, Set.mem_singleton_iff, Set.mem_Icc]
      omega
    refine (hplace "4 SLOT" ⟨2, 1, "4 SLOT", none, none, none, none, none⟩ 1 rfl ?_ ?_
      ⟨2, ?_, ?_⟩ ?_ ?_).1 (by decide)
    · rw [hproducts]
      exact Set.ordConnected_Icc
    · rw [rowIds_pairOfSlots]
      exact Set.ordConnected_Icc
    · rw [bareIds_pairOfSlots]
      exact .inl rfl
    · rw [rowIds_pairOfSlots]
      exact isLeast_Icc (by decide)
    · rw [hproducts]
      exact (isNth_iff_of_consecutive Set.ordConnected_Icc (isLeast_Icc (by decide))).2
        ⟨by decide, rfl⟩
    · rw [rowIds_pairOfSlots, ← Finset.coe_Icc, Set.ncard_coe_finset]
      decide
  · refine (horder "2 SLOT" "4 SLOT" _ _ rfl rfl rfl (by decide) ⟨2, by
      rw [bareIds_pairOfSlots]
      exact .inl rfl⟩).1 ?_
    rintro ⟨first, start, hfirst, hstart, hfits⟩
    have hfirst : first ∈ ({1, 5} : Set Int) := productIds_pairOfSlots 5 ▸ hfirst.1
    have hstart : start ∈ ({2, 3} : Set Int) := bareIds_pairOfSlots 5 ▸ hstart.1
    simp only [Set.mem_insert_iff, Set.mem_singleton_iff] at hfirst hstart
    have hfits' : ShiftFits start first 5 := ⟨⟨by omega, by omega⟩, by omega, by omega⟩
    exact hfits hfits'

/-- The second product is too far from the first one for the sum to be an id. -/
theorem dimensionlessPriceId?_out_of_range :
    ∃ product product', (pairOfSlots (2 ^ 63 - 1)).HoldsIds ∧
      (pairOfSlots (2 ^ 63 - 1)).product? "2 SLOT" = .ok (some product) ∧
      (pairOfSlots (2 ^ 63 - 1)).product? "4 SLOT" = .ok (some product') ∧
      product.tableId = product'.tableId ∧ product.productId < product'.productId ∧
      (pairOfSlots (2 ^ 63 - 1)).dimensionlessPriceId? "2 SLOT" = .ok (some 2) ∧
      (pairOfSlots (2 ^ 63 - 1)).dimensionlessPriceId? "4 SLOT" = .error (.overflow "add") :=
  ⟨_, _, holdsIds_pairOfSlots (by decide), rfl, rfl, rfl, by decide, rfl, rfl⟩

end Catalog

end Ventilation
