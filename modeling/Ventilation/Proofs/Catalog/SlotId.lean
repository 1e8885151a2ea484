import Ventilation.Proofs.Catalog.Lookup

/-!
# The row id of a product without dimensions

The id is found by adding: the product stands as far from the first product of its table as its row
from the first row without dimensions. The distance and the sum are ids themselves and have to fit
64 bits. The answer is an overflow exactly where one of them does not.
-/

set_option autoImplicit false
set_option relaxedAutoImplicit false

namespace Ventilation

namespace Catalog

variable {c : Catalog Float} {model : String} {product : Product} {first start id : Int}

/-! ### Ids of 64 bits -/

/-- The ids that a column of ids can hold. -/
def idRange : Set Int := Set.Ico (-2 ^ 63) (2 ^ 63)

instance (id : Int) : Decidable (id ∈ idRange) :=
  inferInstanceAs (Decidable (-2 ^ 63 ≤ id ∧ id < 2 ^ 63))

theorem checkedId_eq (operation : String) (id : Int) :
    checkedId operation id = if id ∈ idRange then .ok id else .error (.overflow operation) := by
  have hbool : (decide (-(twoTo 63 : Int) ≤ id) && decide (id < (twoTo 63 : Int))) =
      decide (id ∈ idRange) :=
    (Bool.decide_and _ _).symm
  unfold checkedId
  rw [hbool]
  simp only [decide_eq_true_eq]

/-- The distance from `first` to `id` fits 64 bits, and so does what is as far from `start`. -/
def ShiftFits (start first id : Int) : Prop :=
  id - first ∈ idRange ∧ start + (id - first) ∈ idRange

theorem shiftedId_of_shiftFits (h : ShiftFits start first id) :
    shiftedId start first id = .ok (start + (id - first)) := by
  unfold shiftedId
  rw [checkedId_eq, if_pos h.1, ok_bind, checkedId_eq, if_pos h.2]

theorem exists_overflow_of_not_shiftFits (h : ¬ ShiftFits start first id) :
    ∃ operation, shiftedId start first id = .error (.overflow operation) := by
  unfold shiftedId
  by_cases hdistance : id - first ∈ idRange
  · have hsum : start + (id - first) ∉ idRange := fun hsum ↦ h ⟨hdistance, hsum⟩
    refine ⟨"add", ?_⟩
    rw [checkedId_eq, if_pos hdistance, ok_bind, checkedId_eq, if_neg hsum]
  · refine ⟨"subtract", ?_⟩
    rw [checkedId_eq, if_neg hdistance]
    rfl

theorem eq_of_shiftedId {id' : Int} (h : shiftedId start first id = .ok id') :
    id' = start + (id - first) := by
  by_cases hfits : ShiftFits start first id
  · rw [shiftedId_of_shiftFits hfits] at h
    exact (Except.ok.inj h).symm
  · obtain ⟨operation, hoverflow⟩ := exists_overflow_of_not_shiftFits hfits
    cases hoverflow.symm.trans h

/-! ### The first product and the first row of a table -/

/-- The ids of the products that share a table. -/
def productIds (c : Catalog Float) (tableId : Int) : Set Int :=
  {id | ∃ p ∈ c.products.getD [], p.tableId = tableId ∧ p.productId = id}

/-- The ids of the rows without dimensions of a table. -/
def bareIds (c : Catalog Float) (tableId : Int) : Set Int :=
  {id | ∃ row ∈ c.prices.getD [],
    row.tableId = tableId ∧ row.height = none ∧ row.width = none ∧ row.priceId = id}

theorem productRows_eq_ok {products : List Product} (h : c.productRows = .ok products) :
    products = c.products.getD [] := by
  rw [table_eq_ok_iff.1 h, Option.getD_some]

theorem productIds_eq {products : List Product} (h : c.productRows = .ok products)
    (tableId : Int) : c.productIds tableId =
      {id | id ∈ (products.filter fun p ↦ p.tableId = tableId).map Product.productId} := by
  ext id
  simp [productIds, productRows_eq_ok h, and_assoc]

theorem bareIds_eq {rows : List (PriceRow Float)} {tableId : Int}
    (h : c.rowsOf tableId = .ok rows) : c.bareIds tableId =
      {id | id ∈ (rows.filter fun row ↦ row.height.isNone && row.width.isNone).map
        PriceRow.priceId} := by
  ext id
  simp [bareIds, mem_rowsOf h, and_assoc]

theorem mem_productIds_of_product? (h : c.product? model = .ok (some product)) :
    product.productId ∈ c.productIds product.tableId := by
  obtain ⟨products, hproducts, hfound⟩ := map_eq_ok_iff.1 h
  rw [productRows_eq_ok hproducts] at hfound
  exact ⟨product, List.mem_of_find?_eq_some hfound, rfl, rfl⟩

/-! ### The answer -/

/-- The distance of a product from the first one of its table does not fit 64 bits, or the id as far
from the first row without dimensions does not. -/
def IdOverflows (c : Catalog Float) (product : Product) : Prop :=
  ∃ first start, IsLeast (c.productIds product.tableId) first ∧
    IsLeast (c.bareIds product.tableId) start ∧ ¬ ShiftFits start first product.productId

/-- Without a row to start from there is no id; else the first product and the first row give it. -/
theorem dimensionlessPriceId?_cases (hproduct : c.product? model = .ok (some product)) :
    (c.bareIds product.tableId = ∅ ∧ (c.dimensionlessPriceId? model = .ok none ∨
      c.dimensionlessPriceId? model = .error (.missing .prices))) ∨
    ∃ first start, IsLeast (c.productIds product.tableId) first ∧
      IsLeast (c.bareIds product.tableId) start ∧
      c.dimensionlessPriceId? model = (shiftedId start first product.productId).map some := by
  obtain ⟨products, hproducts, hfound⟩ := map_eq_ok_iff.1 hproduct
  have hshares : product ∈ products.filter fun p ↦ p.tableId = product.tableId :=
    List.mem_filter.2 ⟨List.mem_of_find?_eq_some hfound, decide_eq_true rfl⟩
  obtain ⟨first, hfirst⟩ := exists_least_key Product.productId hshares
  unfold dimensionlessPriceId?
  rw [hproduct, ok_bind]
  simp only [hproducts, ok_bind, hfirst]
  cases hprices : c.prices with
  | none =>
    have hmissing : c.rowsOf product.tableId = .error (.missing .prices) := by
      unfold rowsOf priceRows
      rw [hprices]
      rfl
    have hempty : c.bareIds product.tableId = ∅ := by
      simp [bareIds, hprices]
    rw [hmissing]
    exact .inl ⟨hempty, .inr rfl⟩
  | some prices =>
    have hrows := rowsOf_eq hprices product.tableId
    rw [bareIds_eq hrows, hrows, ok_bind]
    generalize ((prices.filter fun row ↦ row.tableId = product.tableId).filter fun row ↦
      row.height.isNone && row.width.isNone).map PriceRow.priceId = bare
    cases hstart : foremost? (fun a b ↦ decide (a < b)) bare with
    | none =>
      rw [foremost?_eq_none_iff.1 hstart]
      exact .inl ⟨Set.ext fun _ ↦ by simp, .inl rfl⟩
    | some start =>
      rw [productIds_eq hproducts]
      exact .inr ⟨first, start, isLeast_of_foremost? hfirst, isLeast_of_foremost? hstart, rfl⟩

theorem exists_of_dimensionlessPriceId? (hproduct : c.product? model = .ok (some product))
    (h : c.dimensionlessPriceId? model = .ok (some id)) :
    ∃ first start, IsLeast (c.productIds product.tableId) first ∧
      IsLeast (c.bareIds product.tableId) start ∧
      id = start + (product.productId - first) := by
  obtain ⟨-, hnone | hmissing⟩ | ⟨first, start, hfirst, hstart, hanswer⟩ :=
    dimensionlessPriceId?_cases hproduct
  · cases hnone.symm.trans h
  · cases hmissing.symm.trans h
  · obtain ⟨id', hid', hsome⟩ := map_eq_ok_iff.1 (hanswer.symm.trans h)
    rw [← Option.some.inj hsome]
    exact ⟨first, start, hfirst, hstart, eq_of_shiftedId hid'⟩

/-- The first product of the table and its first row without dimensions give the id. -/
theorem dimensionlessPriceId?_eq (hproduct : c.product? model = .ok (some product))
    (hfirst : IsLeast (c.productIds product.tableId) first)
    (hstart : IsLeast (c.bareIds product.tableId) start) :
    c.dimensionlessPriceId? model = (shiftedId start first product.productId).map some := by
  obtain ⟨hempty, -⟩ | ⟨first', start', hfirst', hstart', hanswer⟩ :=
    dimensionlessPriceId?_cases hproduct
  · exact absurd (hempty ▸ hstart.1) (Set.notMem_empty start)
  · rw [hanswer, hfirst.unique hfirst', hstart.unique hstart']

theorem dimensionlessPriceId?_eq_ok (hproduct : c.product? model = .ok (some product))
    (hfirst : IsLeast (c.productIds product.tableId) first)
    (hstart : IsLeast (c.bareIds product.tableId) start)
    (hfits : ShiftFits start first product.productId) :
    c.dimensionlessPriceId? model = .ok (some (start + (product.productId - first))) := by
  rw [dimensionlessPriceId?_eq hproduct hfirst hstart, shiftedId_of_shiftFits hfits]
  rfl

/-- The answer is an overflow exactly where the id overflows. -/
theorem exists_overflow_iff (hproduct : c.product? model = .ok (some product)) :
    (∃ operation, c.dimensionlessPriceId? model = .error (.overflow operation)) ↔
      c.IdOverflows product := by
  constructor
  · rintro ⟨operation, h⟩
    obtain ⟨-, hnone | hmissing⟩ | ⟨first, start, hfirst, hstart, hanswer⟩ :=
      dimensionlessPriceId?_cases hproduct
    · cases hnone.symm.trans h
    · cases hmissing.symm.trans h
    · refine ⟨first, start, hfirst, hstart, fun hfits ↦ ?_⟩
      rw [hanswer, shiftedId_of_shiftFits hfits] at h
      cases h
  · rintro ⟨first, start, hfirst, hstart, hfits⟩
    obtain ⟨operation, hoverflow⟩ := exists_overflow_of_not_shiftFits hfits
    refine ⟨operation, ?_⟩
    rw [dimensionlessPriceId?_eq hproduct hfirst hstart, hoverflow]
    rfl

end Catalog

end Ventilation
