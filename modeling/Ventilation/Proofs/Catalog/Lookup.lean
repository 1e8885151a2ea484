import Ventilation.Catalog.RoundUp
import Ventilation.Proofs.Catalog.Foremost
import Ventilation.Proofs.Measure.SizeText
import Ventilation.Proofs.Pricing.Answer

/-!
# Looking up tabulated sizes

In a table whose sizes are whole inches and stand at most once each, a lookup at the size of a row
answers with that row: `priceAt?_of_mem`, `priceAtDiameter?_of_mem` and `footRate?_of_mem`. A size
of the table is never beyond its edges, `exceededRate?_of_covered`, and every size that rounding up
offers is one of the table.
-/

set_option autoImplicit false
set_option relaxedAutoImplicit false

namespace Ventilation

open Binary64

/-! ### Tabulated sizes -/

/-- Columns that hold equal numbers, or both nothing. -/
def sameColumn : Option Float → Option Float → Prop
  | some x, some y => (x == y) = true
  | none, none => True
  | _, _ => False

instance : (a b : Option Float) → Decidable (sameColumn a b)
  | some x, some y => inferInstanceAs (Decidable ((x == y) = true))
  | none, none => inferInstanceAs (Decidable True)
  | some _, none => inferInstanceAs (Decidable False)
  | none, some _ => inferInstanceAs (Decidable False)

theorem sameColumn_comm {a b : Option Float} (h : sameColumn a b) : sameColumn b a := by
  cases a with
  | none => cases b <;> exact h
  | some x =>
    cases b with
    | none => exact h
    | some y => exact beq_comm h

namespace PriceRow

/-- Two rows of one table at one size. Rows without a height stand at no size. -/
def SameSize (a b : PriceRow Float) : Prop :=
  a.tableId = b.tableId ∧ a.height.isSome = true ∧
    sameColumn a.height b.height ∧ sameColumn a.width b.width

/-- Two rows of one table at one rectangle. -/
def SameRectangle (a b : PriceRow Float) : Prop :=
  a.SameSize b ∧ a.width.isSome = true

/-- Two rates per foot of one table for one side. -/
def SameFootSize (a b : PriceRow Float) : Prop :=
  a.tableId = b.tableId ∧ a.height.isSome = true ∧ sameColumn a.height b.height ∧
    a.pricePerFoot.isSome = true ∧ b.pricePerFoot.isSome = true

theorem isSome_of_sameColumn {a b : Option Float} (h : sameColumn a b) (ha : a.isSome = true) :
    b.isSome = true := by
  cases a with
  | none => cases ha
  | some x =>
    cases b with
    | none => exact h.elim
    | some y => rfl

theorem SameSize.symm {a b : PriceRow Float} (h : a.SameSize b) : b.SameSize a :=
  ⟨h.1.symm, isSome_of_sameColumn h.2.2.1 h.2.1, sameColumn_comm h.2.2.1, sameColumn_comm h.2.2.2⟩

theorem SameRectangle.symm {a b : PriceRow Float} (h : a.SameRectangle b) : b.SameRectangle a :=
  ⟨h.1.symm, isSome_of_sameColumn h.1.2.2.2 h.2⟩

theorem SameFootSize.symm {a b : PriceRow Float} (h : a.SameFootSize b) : b.SameFootSize a :=
  ⟨h.1.symm, isSome_of_sameColumn h.2.2.1 h.2.1, sameColumn_comm h.2.2.1, h.2.2.2.2, h.2.2.2.1⟩

instance (a b : PriceRow Float) : Decidable (a.SameSize b) := inferInstanceAs (Decidable (_ ∧ _))

instance (a b : PriceRow Float) : Decidable (a.SameRectangle b) :=
  inferInstanceAs (Decidable (_ ∧ _))

instance (a b : PriceRow Float) : Decidable (a.SameFootSize b) :=
  inferInstanceAs (Decidable (_ ∧ _))

end PriceRow

namespace Catalog

variable {c : Catalog Float} {tableId : Int} {rows : List (PriceRow Float)} {row : PriceRow Float}

/-- Every size in the price list is in whole inches. -/
def WholeInches (c : Catalog Float) : Prop :=
  ∀ row ∈ c.prices.getD [],
    (∀ x ∈ row.height, IsWholeInches x) ∧ (∀ x ∈ row.width, IsWholeInches x)

/-- Sizes are in whole inches, and no table has two rows at one size. -/
structure Tabulated (c : Catalog Float) : Prop where
  whole : c.WholeInches
  sizes : (c.prices.getD []).Pairwise fun a b ↦ ¬ a.SameSize b
  footSizes : (c.prices.getD []).Pairwise fun a b ↦ ¬ a.SameFootSize b

theorem tabulated_iff : c.Tabulated ↔ c.WholeInches ∧
    ((c.prices.getD []).Pairwise fun a b ↦ ¬ a.SameSize b) ∧
    (c.prices.getD []).Pairwise fun a b ↦ ¬ a.SameFootSize b :=
  ⟨fun h ↦ ⟨h.whole, h.sizes, h.footSizes⟩, fun h ↦ ⟨h.1, h.2.1, h.2.2⟩⟩

/-- No two rows of the price list have one id. -/
def UniquePriceIds (c : Catalog Float) : Prop :=
  (c.prices.getD []).Pairwise fun a b ↦ ¬ a.priceId = b.priceId

instance : Decidable c.UniquePriceIds := inferInstanceAs (Decidable (List.Pairwise _ _))

instance : Decidable c.WholeInches := inferInstanceAs (Decidable (∀ row ∈ c.prices.getD [], _))

instance : Decidable c.Tabulated := decidable_of_iff _ tabulated_iff.symm

theorem rowsOf_eq {prices : List (PriceRow Float)} (hprices : c.prices = some prices)
    (tableId : Int) : c.rowsOf tableId = .ok (prices.filter fun row ↦ row.tableId = tableId) := by
  unfold rowsOf priceRows
  rw [hprices]
  rfl

theorem table_eq_ok_iff {β : Type} {which : CatalogTable} {held : Option (List β)}
    {found : List β} : table which held = .ok found ↔ held = some found := by
  cases held with
  | none => exact ⟨fun h ↦ (by cases h), fun h ↦ (by cases h)⟩
  | some all => exact ⟨fun h ↦ congrArg some (Except.ok.inj h), fun h ↦
      congrArg Except.ok (Option.some.inj h)⟩

theorem rowsOf_eq_ok (h : c.rowsOf tableId = .ok rows) :
    rows = (c.prices.getD []).filter fun row ↦ row.tableId = tableId := by
  obtain ⟨prices, hprices, rfl⟩ := map_eq_ok_iff.1 h
  rw [table_eq_ok_iff.1 hprices, Option.getD_some]

theorem mem_rowsOf (h : c.rowsOf tableId = .ok rows) :
    row ∈ rows ↔ row ∈ c.prices.getD [] ∧ row.tableId = tableId := by
  rw [rowsOf_eq_ok h, List.mem_filter, decide_eq_true_eq]

theorem exists_rowsOf_of_mem (h : row ∈ c.prices.getD []) (tableId : Int) :
    ∃ rows, c.rowsOf tableId = .ok rows := by
  cases hprices : c.prices with
  | none =>
    rw [hprices] at h
    cases h
  | some prices => exact ⟨_, rowsOf_eq hprices tableId⟩

theorem WholeInches.isWholeInches (hc : c.WholeInches) (h : c.rowsOf tableId = .ok rows)
    (hrow : row ∈ rows) {x : Float} (hx : row.height = some x ∨ row.width = some x) :
    IsWholeInches x := by
  obtain ⟨hheight, hwidth⟩ := hc row ((mem_rowsOf h).1 hrow).1
  rcases hx with hx | hx
  · exact hheight x hx
  · exact hwidth x hx

/-! ### Lookups at the size of a row -/

theorem isAt_iff {column : Option Float} {x : Float} :
    isAt column x = true ↔ ∃ y, column = some y ∧ (y == x) = true := by
  cases column with
  | none => simp [isAt]
  | some y => simp [isAt]

theorem sameColumn_of_isAt {a b : Option Float} {x : Float} (ha : isAt a x = true)
    (hb : isAt b x = true) : sameColumn a b := by
  obtain ⟨y, rfl, hy⟩ := isAt_iff.1 ha
  obtain ⟨z, rfl, hz⟩ := isAt_iff.1 hb
  obtain ⟨hyn, -, hyx⟩ := beq_iff.1 hy
  obtain ⟨hzn, -, hzx⟩ := beq_iff.1 hz
  exact beq_iff.2 ⟨hyn, hzn, hyx.trans hzx.symm⟩

theorem isSome_of_isAt {a : Option Float} {x : Float} (ha : isAt a x = true) : a.isSome = true := by
  obtain ⟨y, rfl, -⟩ := isAt_iff.1 ha
  rfl

theorem pairwise_rowsOf {alike : PriceRow Float → PriceRow Float → Prop}
    (h : c.rowsOf tableId = .ok rows) (hc : (c.prices.getD []).Pairwise fun a b ↦ ¬ alike a b) :
    rows.Pairwise fun a b ↦ ¬ alike a b := by
  rw [rowsOf_eq_ok h]
  exact hc.filter _

theorem tableId_eq_of_mem (h : c.rowsOf tableId = .ok rows) {a b : PriceRow Float} (ha : a ∈ rows)
    (hb : b ∈ rows) : a.tableId = b.tableId :=
  ((mem_rowsOf h).1 ha).2.trans ((mem_rowsOf h).1 hb).2.symm

/-- Rows that one rectangle asks for. -/
theorem sameRectangle_of_isAt (h : c.rowsOf tableId = .ok rows) {height width : Float} :
    ∀ a ∈ rows, ∀ b ∈ rows, (isAt a.height height && isAt a.width width) = true →
      (isAt b.height height && isAt b.width width) = true → a.SameRectangle b := by
  intro a ha b hb hpa hpb
  rw [Bool.and_eq_true] at hpa hpb
  exact ⟨⟨tableId_eq_of_mem h ha hb, isSome_of_isAt hpa.1, sameColumn_of_isAt hpa.1 hpb.1,
    sameColumn_of_isAt hpa.2 hpb.2⟩, isSome_of_isAt hpa.2⟩

/-- Rows that one diameter asks for. -/
theorem sameSize_of_isAt (h : c.rowsOf tableId = .ok rows) {diameter : Float} :
    ∀ a ∈ rows, ∀ b ∈ rows, (isAt a.height diameter && a.width.isNone) = true →
      (isAt b.height diameter && b.width.isNone) = true → a.SameSize b := by
  intro a ha b hb hpa hpb
  rw [Bool.and_eq_true, Option.isNone_iff_eq_none] at hpa hpb
  refine ⟨tableId_eq_of_mem h ha hb, isSome_of_isAt hpa.1, sameColumn_of_isAt hpa.1 hpb.1, ?_⟩
  rw [hpa.2, hpb.2]
  trivial

/-- Rows that one side of a linear item asks for. -/
theorem sameFootSize_of_isAt (h : c.rowsOf tableId = .ok rows) {side : Float} :
    ∀ a ∈ rows, ∀ b ∈ rows, (isAt a.height side && a.pricePerFoot.isSome) = true →
      (isAt b.height side && b.pricePerFoot.isSome) = true → a.SameFootSize b := by
  intro a ha b hb hpa hpb
  rw [Bool.and_eq_true] at hpa hpb
  exact ⟨tableId_eq_of_mem h ha hb, isSome_of_isAt hpa.1, sameColumn_of_isAt hpa.1 hpb.1, hpa.2,
    hpb.2⟩

theorem priceAt?_of_rectangle (hc : (c.prices.getD []).Pairwise fun a b ↦ ¬ a.SameRectangle b)
    (h : c.rowsOf tableId = .ok rows) (hrow : row ∈ rows) {height width : Float}
    (hheight : isAt row.height height = true) (hwidth : isAt row.width width = true) :
    c.priceAt? tableId height width = .ok row.tablePrice? := by
  have hfound : (rows.filter fun row ↦ isAt row.height height && isAt row.width width) = [row] :=
    filter_eq_singleton (pairwise_rowsOf h hc) (sameRectangle_of_isAt h) hrow
      (by rw [hheight, hwidth]; rfl)
  unfold priceAt?
  rw [h]
  simp only [Except.map, hfound]
  rfl

theorem priceAt?_of_mem (hc : c.Tabulated) (h : c.rowsOf tableId = .ok rows) (hrow : row ∈ rows)
    {height width : Float} (hheight : isAt row.height height = true)
    (hwidth : isAt row.width width = true) :
    c.priceAt? tableId height width = .ok row.tablePrice? :=
  priceAt?_of_rectangle (hc.sizes.imp fun h hsame ↦ h hsame.1) h hrow hheight hwidth

theorem priceAt?_of_no_rectangle (h : c.rowsOf tableId = .ok rows) {height width : Float}
    (hnone : ∀ row ∈ rows, isAt row.height height = true → ¬ isAt row.width width = true) :
    c.priceAt? tableId height width = .ok none := by
  have hfound : (rows.filter fun row ↦ isAt row.height height && isAt row.width width) = [] := by
    rw [List.filter_eq_nil_iff]
    intro row hrow hat
    rw [Bool.and_eq_true] at hat
    exact hnone row hrow hat.1 hat.2
  unfold priceAt?
  rw [h]
  simp only [Except.map, hfound]
  rfl

theorem priceAtDiameter?_of_mem (hc : c.Tabulated) (h : c.rowsOf tableId = .ok rows)
    (hrow : row ∈ rows) {diameter : Float} (hheight : isAt row.height diameter = true)
    (hwidth : row.width = none) :
    c.priceAtDiameter? tableId diameter = .ok row.tablePrice? := by
  have hfound : (rows.filter fun row ↦ isAt row.height diameter && row.width.isNone) = [row] :=
    filter_eq_singleton (pairwise_rowsOf h hc.sizes) (sameSize_of_isAt h) hrow
      (by rw [hheight, hwidth]; rfl)
  unfold priceAtDiameter?
  rw [h]
  simp only [Except.map, hfound]
  rfl

theorem footRate?_of_mem (hc : c.Tabulated) (h : c.rowsOf tableId = .ok rows)
    (hrow : row ∈ rows) {side : Float} (hheight : isAt row.height side = true)
    (hrate : row.pricePerFoot.isSome = true) :
    c.footRate? tableId side = .ok row.pricePerFoot := by
  have hsized : (isAt row.height side && row.pricePerFoot.isSome) = true := by
    rw [hheight, hrate]
    rfl
  have hfound :
      (rows.filter fun row ↦ isAt row.height side && row.pricePerFoot.isSome) = [row] :=
    filter_eq_singleton (pairwise_rowsOf h hc.footSizes) (sameFootSize_of_isAt h) hrow hsized
  unfold footRate?
  rw [h]
  simp only [Except.map, hfound]
  rfl

/-! ### The edges of a table -/

/-- The foremost element by the greater key has the greatest key, if keys are numbers. -/
theorem le_of_foremost?_greater {β : Type} {xs : List β} {x : β} (key : β → Float)
    (hnumber : ∀ y ∈ xs, IsNumber (key y))
    (h : foremost? (fun a b ↦ decide (key b < key a)) xs = some x) : ∀ y ∈ xs, key y ≤ key x := by
  have hkey : ∀ a ∈ xs, ∀ b ∈ xs,
      decide (key b < key a) = decide (-place (key a) < -place (key b)) := by
    intro a ha b hb
    rw [decide_lt_eq (hnumber b hb) (hnumber a ha)]
    exact decide_eq_decide.2 ⟨Int.neg_lt_neg, Int.lt_of_neg_lt_neg⟩
  intro y hy
  have hle := key_le_of_foremost? (fun a ↦ -place (key a)) hkey h y hy
  exact le_iff.2 ⟨hnumber y hy, hnumber x (mem_of_foremost? h), Int.le_of_neg_le_neg hle⟩

/-- A table of numbers reaches at least as far as each of its rows. -/
theorem le_of_greatest? {xs : List (Option Float)} {m x : Float}
    (hxs : ∀ x, some x ∈ xs → IsNumber x) (hm : greatest? xs = some m) (hx : some x ∈ xs) :
    x ≤ m := by
  have hmem : ∀ y, y ∈ xs.filterMap id ↔ some y ∈ xs := by
    intro y
    rw [List.mem_filterMap]
    exact ⟨fun ⟨_, ha, hay⟩ ↦ hay ▸ ha, fun hy ↦ ⟨_, hy, rfl⟩⟩
  exact le_of_foremost?_greater (fun y ↦ y) (fun y hy ↦ hxs y ((hmem y).1 hy)) hm x ((hmem x).2 hx)

theorem exists_greatest? {xs : List (Option Float)} {x : Float} (hx : some x ∈ xs) :
    ∃ m, greatest? xs = some m :=
  exists_foremost? (List.mem_filterMap.2 ⟨some x, hx, rfl⟩)

/-- There is no rate beyond the edges for a size that a row of the table covers. -/
theorem exceededRate?_of_covered (hc : c.WholeInches) (h : c.rowsOf tableId = .ok rows)
    (hrow : row ∈ rows) {width height w y : Float} (hwidth : row.width = some w)
    (hheight : row.height = some y) (hw : place width ≤ place w) (hy : place height ≤ place y)
    (damper : Bool) : c.exceededRate? tableId width height damper = .ok none := by
  have hheights : ∀ x, some x ∈ rows.map PriceRow.height → IsNumber x := by
    intro x hx
    obtain ⟨r, hr, hrx⟩ := List.mem_map.1 hx
    obtain ⟨n, -, hn⟩ := hc.isWholeInches h hr (.inl hrx)
    exact (nearest_value hn).1
  have hwidths : ∀ x, some x ∈ rows.map PriceRow.width → IsNumber x := by
    intro x hx
    obtain ⟨r, hr, hrx⟩ := List.mem_map.1 hx
    obtain ⟨n, -, hn⟩ := hc.isWholeInches h hr (.inr hrx)
    exact (nearest_value hn).1
  have hymem : some y ∈ rows.map PriceRow.height := List.mem_map.2 ⟨row, hrow, hheight⟩
  have hwmem : some w ∈ rows.map PriceRow.width := List.mem_map.2 ⟨row, hrow, hwidth⟩
  obtain ⟨maxHeight, hmaxHeight⟩ := exists_greatest? hymem
  obtain ⟨maxWidth, hmaxWidth⟩ := exists_greatest? hwmem
  have hmax : c.maxDimensions? tableId = .ok (some (maxHeight, maxWidth)) := by
    unfold maxDimensions?
    rw [h]
    simp only [Except.map, hmaxHeight, hmaxWidth, Option.bind_some, Option.map_some]
  have hwithinWidth : ¬ maxWidth < width := by
    rw [lt_iff]
    have hle := (le_iff.1 (le_of_greatest? hwidths hmaxWidth hwmem)).2.2
    omega
  have hwithinHeight : ¬ maxHeight < height := by
    rw [lt_iff]
    have hle := (le_iff.1 (le_of_greatest? hheights hmaxHeight hymem)).2.2
    omega
  unfold exceededRate?
  rw [hmax]
  simp only [ok_bind, decide_eq_false hwithinWidth, decide_eq_false hwithinHeight]
  rfl

/-! ### Listed sizes -/

theorem mem_rectangularSizes (h : c.rowsOf tableId = .ok rows) :
    ∃ sizes, c.rectangularSizes tableId = .ok sizes ∧ ∀ size : Float × Float,
      size ∈ sizes ↔ ∃ row ∈ rows, row.width = some size.1 ∧ row.height = some size.2 := by
  refine ⟨(rows.mergeSort fun a b ↦ !rowBefore b a).filterMap fun row ↦
    row.width.bind fun w ↦ row.height.map fun h ↦ (w, h), ?_, ?_⟩
  · unfold rectangularSizes
    rw [h]
    rfl
  · intro size
    simp only [List.mem_filterMap, List.mem_mergeSort, Option.bind_eq_some_iff,
      Option.map_eq_some_iff]
    constructor
    · rintro ⟨row, hrow, w, hw, y, hy, rfl⟩
      exact ⟨row, hrow, hw, hy⟩
    · rintro ⟨row, hrow, hw, hy⟩
      exact ⟨row, hrow, size.1, hw, size.2, hy, rfl⟩

theorem mem_diameters (h : c.rowsOf tableId = .ok rows) :
    ∃ sizes, c.diameters tableId = .ok sizes ∧ ∀ diameter : Float,
      diameter ∈ sizes ↔ ∃ row ∈ rows, row.width = none ∧ row.height = some diameter := by
  refine ⟨increasing ((rows.filter fun row ↦ row.width.isNone).filterMap PriceRow.height), ?_, ?_⟩
  · unfold diameters
    rw [h]
    rfl
  · intro diameter
    simp only [increasing, List.mem_mergeSort, List.mem_filterMap, List.mem_filter,
      Option.isNone_iff_eq_none, and_assoc]

theorem mem_footSizes (h : c.rowsOf tableId = .ok rows) :
    ∃ sizes, c.footSizes tableId = .ok sizes ∧ ∀ side : Float,
      side ∈ sizes ↔ ∃ row ∈ rows, row.pricePerFoot.isSome = true ∧ row.height = some side := by
  refine ⟨increasing ((rows.filter fun row ↦ row.pricePerFoot.isSome).filterMap PriceRow.height),
    ?_, ?_⟩
  · unfold footSizes
    rw [h]
    rfl
  · intro side
    simp only [increasing, List.mem_mergeSort, List.mem_filterMap, List.mem_filter, and_assoc]

end Catalog

/-! ### Rounding up -/

theorem roundUpSize?_eq_some {sizes : List (Float × Float)} {width height : Float}
    {size : Float × Float} (h : roundUpSize? sizes width height = some size) :
    size ∈ sizes ∧ width ≤ size.1 ∧ height ≤ size.2 := by
  obtain ⟨hmem, hcovers⟩ := List.mem_filter.1 (mem_of_foremost? h)
  rw [Bool.and_eq_true, decide_eq_true_eq, decide_eq_true_eq] at hcovers
  exact ⟨hmem, hcovers⟩

theorem exists_roundUpSize? {sizes : List (Float × Float)} {width height : Float}
    {size : Float × Float} (hsize : size ∈ sizes) (hwidth : width ≤ size.1)
    (hheight : height ≤ size.2) : ∃ found, roundUpSize? sizes width height = some found := by
  have hcovers : (decide (width ≤ size.1) && decide (height ≤ size.2)) = true := by
    rw [decide_eq_true hwidth, decide_eq_true hheight]
    rfl
  exact exists_foremost? (List.mem_filter.2 ⟨hsize, hcovers⟩)

theorem roundUpValue?_eq_some {values : List Float} {requested value : Float}
    (h : roundUpValue? values requested = some value) : value ∈ values ∧ requested ≤ value := by
  obtain ⟨hmem, hcovers⟩ := List.mem_filter.1 (mem_of_foremost? h)
  exact ⟨hmem, of_decide_eq_true hcovers⟩

end Ventilation
