import Mathlib.Data.Prod.Lex
import Ventilation.Proofs.Catalog.Edge
import Ventilation.Proofs.Number.Nonneg
import Ventilation.Proofs.Text.Names

/-!
# The order of rows

In a catalog whose rows can be told apart by what they are asked for, the rows that answer a
question are the same in whatever order the tables are listed. `Unambiguous` says which rows have
to differ, and `sameAnswers_of_reordered` goes through the questions that pricing asks.
-/

set_option autoImplicit false
set_option relaxedAutoImplicit false

namespace Ventilation

open Binary64

/-! ### Rounding up -/

section RoundUp

variable {sizes sizes' : List (Float × Float)} {values values' : List Float}
  {width height requested : Float}

/-- By what sizes are compared when one is rounded up: overshoot, width and height. -/
def fitKey (width height : Float) (size : Float × Float) : ℤ ×ₗ ℤ ×ₗ ℤ :=
  toLex (place (overshoot width height size), toLex (place size.1, place size.2))

/-- A size that covers the request goes beyond it by no negative number. -/
theorem isNonneg_overshoot {size : Float × Float}
    (hfinite : (value? size.1).isSome = true ∧ (value? size.2).isSome = true)
    (hwidth : width ≤ size.1) (hheight : height ≤ size.2) :
    IsNonneg (overshoot width height size) := by
  obtain ⟨a, ha⟩ := Option.isSome_iff_exists.1 hfinite.1
  obtain ⟨b, hb⟩ := Option.isSome_iff_exists.1 hfinite.2
  unfold overshoot
  split
  · exact ⟨by decide +kernel, by decide +kernel⟩
  -- Each difference is not negative, which keeps infinities of two signs out of the sum.
  · obtain ⟨hnumberw, hplacew⟩ := place_sub_nonneg ha hwidth
    obtain ⟨hnumberh, hplaceh⟩ := place_sub_nonneg hb hheight
    exact isNonneg_add ⟨hnumberw, hplacew⟩ ⟨hnumberh, hplaceh⟩

theorem isNumber_overshoot {size : Float × Float}
    (hfinite : (value? size.1).isSome = true ∧ (value? size.2).isSome = true)
    (hwidth : width ≤ size.1) (hheight : height ≤ size.2) :
    IsNumber (overshoot width height size) :=
  (isNonneg_overshoot hfinite hwidth hheight).isNumber

theorem fitsBetter_eq {a b : Float × Float} (ha : IsNumber (overshoot width height a))
    (hb : IsNumber (overshoot width height b)) (haw : IsNumber a.1) (hah : IsNumber a.2)
    (hbw : IsNumber b.1) (hbh : IsNumber b.2) :
    fitsBetter width height a b = decide (fitKey width height a < fitKey width height b) := by
  unfold fitsBetter fitKey
  simp only [decide_lt_eq ha hb, beq_eq_decide ha hb, decide_lt_eq haw hbw, beq_eq_decide haw hbw,
    decide_lt_eq hah hbh]
  rw [Bool.eq_iff_iff]
  simp only [Bool.or_eq_true, Bool.and_eq_true, decide_eq_true_eq, Prod.Lex.toLex_lt_toLex]

/-- Where no two sizes are equal, rounding up does not depend on their order. -/
theorem roundUpSize?_eq_of_perm
    (hfinite : ∀ size ∈ sizes, (value? size.1).isSome = true ∧ (value? size.2).isSome = true)
    (hunique : ∀ a ∈ sizes, ∀ b ∈ sizes, (a.1 == b.1) = true → (a.2 == b.2) = true → a = b)
    (h : sizes.Perm sizes') :
    roundUpSize? sizes width height = roundUpSize? sizes' width height := by
  unfold roundUpSize?
  have hnumbers : ∀ a ∈ sizes.filter fun size ↦
      decide (width ≤ size.1) && decide (height ≤ size.2),
      a ∈ sizes ∧ IsNumber (overshoot width height a) ∧ IsNumber a.1 ∧ IsNumber a.2 := by
    intro a ha
    obtain ⟨hmem, hcovers⟩ := List.mem_filter.1 ha
    rw [Bool.and_eq_true, decide_eq_true_eq, decide_eq_true_eq] at hcovers
    exact ⟨hmem, isNumber_overshoot (hfinite a hmem) hcovers.1 hcovers.2,
      (le_iff.1 hcovers.1).2.1, (le_iff.1 hcovers.2).2.1⟩
  refine foremost?_eq_of_perm (fitKey width height) ?_ ?_ (h.filter _)
  · intro a ha b hb
    obtain ⟨-, hao, haw, hah⟩ := hnumbers a ha
    obtain ⟨-, hbo, hbw, hbh⟩ := hnumbers b hb
    exact fitsBetter_eq hao hbo haw hah hbw hbh
  · -- Overshoots may be equal by rounding, but then the sides still tell sizes apart.
    intro a ha b hb hkey
    obtain ⟨hamem, -, haw, hah⟩ := hnumbers a ha
    obtain ⟨hbmem, -, hbw, hbh⟩ := hnumbers b hb
    obtain ⟨-, hsides⟩ := Prod.mk.inj (toLex.injective hkey)
    obtain ⟨hw, hh⟩ := Prod.mk.inj (toLex.injective hsides)
    exact hunique a hamem b hbmem (beq_iff.2 ⟨haw, hbw, hw⟩) (beq_iff.2 ⟨hah, hbh, hh⟩)

theorem roundUpValue?_eq_of_perm
    (hunique : ∀ a ∈ values, ∀ b ∈ values, (a == b) = true → a = b)
    (h : values.Perm values') :
    roundUpValue? values requested = roundUpValue? values' requested := by
  unfold roundUpValue?
  have hnumbers : ∀ a ∈ values.filter fun v ↦ decide (requested ≤ v), a ∈ values ∧ IsNumber a := by
    intro a ha
    obtain ⟨hmem, hcovers⟩ := List.mem_filter.1 ha
    exact ⟨hmem, (le_iff.1 (of_decide_eq_true hcovers)).2.1⟩
  refine foremost?_eq_of_perm place ?_ ?_ (h.filter _)
  · intro a ha b hb
    exact decide_lt_eq (hnumbers a ha).2 (hnumbers b hb).2
  · intro a ha b hb hplace
    obtain ⟨hamem, ha⟩ := hnumbers a ha
    obtain ⟨hbmem, hb⟩ := hnumbers b hb
    exact hunique a hamem b hbmem (beq_iff.2 ⟨ha, hb, hplace⟩)

end RoundUp

/-! ### Catalogs with the same rows -/

/-- Two tables that hold the same rows. -/
def SameRows {β : Type} (table table' : Option (List β)) : Prop :=
  ∃ rows rows', table = some rows ∧ table' = some rows' ∧ rows.Perm rows'

theorem SameRows.mem_iff {β : Type} {table table' : Option (List β)} {row : β}
    (h : SameRows table table') : row ∈ table.getD [] ↔ row ∈ table'.getD [] := by
  obtain ⟨rows, rows', rfl, rfl, hperm⟩ := h
  exact hperm.mem_iff

theorem SameRows.symm {β : Type} {table table' : Option (List β)} (h : SameRows table table') :
    SameRows table' table := by
  obtain ⟨rows, rows', hrows, hrows', hperm⟩ := h
  exact ⟨rows', rows, hrows', hrows, hperm.symm⟩

theorem SameRows.pairwise {β : Type} {table table' : Option (List β)} {alike : β → β → Prop}
    (h : SameRows table table') (hsymm : ∀ a b, alike a b → alike b a)
    (hunique : (table.getD []).Pairwise fun a b ↦ ¬ alike a b) :
    (table'.getD []).Pairwise fun a b ↦ ¬ alike a b := by
  obtain ⟨rows, rows', rfl, rfl, hperm⟩ := h
  exact hunique.perm hperm fun hab hba ↦ hab (hsymm _ _ hba)

namespace Catalog

variable {c c' : Catalog Float} {tableId : Int}

/-- The tables of two catalogs hold the same rows, each in its own order. -/
structure Reordered (c c' : Catalog Float) : Prop where
  products : SameRows c.products c'.products
  prices : SameRows c.prices c'.prices
  rowMultipliers : SameRows c.rowMultipliers c'.rowMultipliers
  columnMultipliers : SameRows c.columnMultipliers c'.columnMultipliers

/-- Rows can be told apart by what they are asked for: products by their model, prices by their id
and within a table by their size, of which rows without height have none, rates per foot by their
side, and entries beyond an edge by their key. Sizes and keys are finite. -/
structure Unambiguous (c : Catalog Float) : Prop where
  models : (c.products.getD []).Pairwise fun a b ↦ ¬ a.model = b.model
  priceIds : c.UniquePriceIds
  sizes : (c.prices.getD []).Pairwise fun a b ↦ ¬ a.SameSize b
  footSizes : (c.prices.getD []).Pairwise fun a b ↦ ¬ a.SameFootSize b
  keys : c.UniqueKeys
  heights : ∀ row ∈ c.prices.getD [], ∀ x ∈ row.height, (value? x).isSome = true
  widths : ∀ row ∈ c.prices.getD [], ∀ x ∈ row.width, (value? x).isSome = true
  rowKeys : ∀ rate ∈ c.rowMultipliers.getD [], (value? rate.key).isSome = true
  columnKeys : ∀ rate ∈ c.columnMultipliers.getD [], (value? rate.key).isSome = true

theorem isNumber_of_isSome {x : Float} (h : (value? x).isSome = true) : IsNumber x := by
  obtain ⟨q, hq⟩ := Option.isSome_iff_exists.1 h
  exact isNumber_of_value? hq

theorem Unambiguous.numeric (hc : c.Unambiguous) : c.Numeric where
  heights row hrow x hx := isNumber_of_isSome (hc.heights row hrow x hx)
  widths row hrow x hx := isNumber_of_isSome (hc.widths row hrow x hx)
  rowKeys rate hrate := isNumber_of_isSome (hc.rowKeys rate hrate)
  columnKeys rate hrate := isNumber_of_isSome (hc.columnKeys rate hrate)

theorem Unambiguous.rectangles (hc : c.Unambiguous) :
    (c.prices.getD []).Pairwise fun a b ↦ ¬ a.SameRectangle b :=
  hc.sizes.imp fun hdiffer hsame ↦ hdiffer hsame.1

theorem Reordered.symm (h : c.Reordered c') : c'.Reordered c where
  products := h.products.symm
  prices := h.prices.symm
  rowMultipliers := h.rowMultipliers.symm
  columnMultipliers := h.columnMultipliers.symm

theorem Reordered.numeric (h : c.Reordered c') (hc : c.Numeric) : c'.Numeric where
  heights row hrow := hc.heights row (h.prices.mem_iff.2 hrow)
  widths row hrow := hc.widths row (h.prices.mem_iff.2 hrow)
  rowKeys rate hrate := hc.rowKeys rate (h.rowMultipliers.mem_iff.2 hrate)
  columnKeys rate hrate := hc.columnKeys rate (h.columnMultipliers.mem_iff.2 hrate)

theorem Reordered.uniqueKeys (h : c.Reordered c') (hc : c.UniqueKeys) : c'.UniqueKeys where
  rows := h.rowMultipliers.pairwise (fun _ _ ↦ EdgeRate.SameKey.symm) hc.rows
  columns := h.columnMultipliers.pairwise (fun _ _ ↦ EdgeRate.SameKey.symm) hc.columns

theorem Reordered.rowsOf (h : c.Reordered c') (tableId : Int) :
    ∃ rows rows', c.rowsOf tableId = .ok rows ∧ c'.rowsOf tableId = .ok rows' ∧
      rows.Perm rows' := by
  obtain ⟨prices, prices', hprices, hprices', hperm⟩ := h.prices
  exact ⟨_, _, rowsOf_eq hprices tableId, rowsOf_eq hprices' tableId, hperm.filter _⟩

/-! ### Questions about one row -/

theorem product?_eq_of_reordered (hc : c.Unambiguous) (h : c.Reordered c') (model : String) :
    c.product? model = c'.product? model := by
  obtain ⟨products, products', hproducts, hproducts', hperm⟩ := h.products
  have hmodels := hc.models
  rw [hproducts] at hmodels
  unfold product? productRows
  rw [hproducts, hproducts']
  refine congrArg Except.ok (find?_eq_of_perm hmodels ?_ hperm)
  intro a _ b _ ha hb
  exact (of_decide_eq_true ha).trans (of_decide_eq_true hb).symm

theorem priceRow?_eq_of_reordered (hc : c.Unambiguous) (h : c.Reordered c') (priceId : Int) :
    c.priceRow? priceId = c'.priceRow? priceId := by
  obtain ⟨prices, prices', hprices, hprices', hperm⟩ := h.prices
  have hids := hc.priceIds
  unfold UniquePriceIds at hids
  rw [hprices] at hids
  unfold priceRow? priceRows
  rw [hprices, hprices']
  refine congrArg Except.ok (find?_eq_of_perm hids ?_ hperm)
  intro a _ b _ ha hb
  exact (of_decide_eq_true ha).trans (of_decide_eq_true hb).symm

/-- What is made of the rows that a table has at one size is the same in any order, as there is at
most one such row. -/
theorem rowsOf_map_filter_eq {γ : Type} (h : c.Reordered c')
    {alike : PriceRow Float → PriceRow Float → Prop}
    (hunique : (c.prices.getD []).Pairwise fun a b ↦ ¬ alike a b) {p : PriceRow Float → Bool}
    (halike : ∀ rows, c.rowsOf tableId = .ok rows →
      ∀ a ∈ rows, ∀ b ∈ rows, p a = true → p b = true → alike a b)
    (answer : List (PriceRow Float) → γ) :
    ((c.rowsOf tableId).map fun rows ↦ answer (rows.filter p)) =
      (c'.rowsOf tableId).map fun rows ↦ answer (rows.filter p) := by
  obtain ⟨rows, rows', hrows, hrows', hperm⟩ := h.rowsOf tableId
  have hfilter : rows.filter p = rows'.filter p :=
    filter_eq_of_perm (pairwise_rowsOf hrows hunique) (halike rows hrows) hperm
  rw [hrows, hrows']
  exact congrArg (fun found ↦ Except.ok (answer found)) hfilter

theorem priceAt?_eq_of_reordered (hc : c.Unambiguous) (h : c.Reordered c') (tableId : Int)
    (height width : Float) : c.priceAt? tableId height width = c'.priceAt? tableId height width :=
  rowsOf_map_filter_eq h hc.rectangles (fun _ hrows ↦ sameRectangle_of_isAt hrows)
    fun found ↦ (foremost? lowerId found).bind PriceRow.tablePrice?

theorem priceAtDiameter?_eq_of_reordered (hc : c.Unambiguous) (h : c.Reordered c') (tableId : Int)
    (diameter : Float) :
    c.priceAtDiameter? tableId diameter = c'.priceAtDiameter? tableId diameter :=
  rowsOf_map_filter_eq h hc.sizes (fun _ hrows ↦ sameSize_of_isAt hrows)
    fun found ↦ (foremost? lowerId found).bind PriceRow.tablePrice?

theorem footRate?_eq_of_reordered (hc : c.Unambiguous) (h : c.Reordered c') (tableId : Int)
    (size : Float) : c.footRate? tableId size = c'.footRate? tableId size :=
  rowsOf_map_filter_eq h hc.footSizes (fun _ hrows ↦ sameFootSize_of_isAt hrows)
    fun found ↦ (foremost? rowBefore found).bind PriceRow.pricePerFoot

/-! ### Rates beyond the edges -/

theorem nearestRate_iff {rates rates' : Option (List (EdgeRate Float))} (h : SameRows rates rates')
    {admits : Float → Prop} {damper : Bool} {m : Float} :
    EdgeRate.NearestRate (rates.getD []) tableId admits damper m ↔
      EdgeRate.NearestRate (rates'.getD []) tableId admits damper m := by
  unfold EdgeRate.NearestRate
  simp only [EdgeRate.isNearest_iff, h.mem_iff]

theorem hasEdges_iff (h : c.Reordered c') {highest widest : Float} :
    c.HasEdges tableId highest widest ↔ c'.HasEdges tableId highest widest := by
  have hheights : c.heights tableId = c'.heights tableId := by
    unfold heights
    simp only [h.prices.mem_iff]
  have hwidths : c.widths tableId = c'.widths tableId := by
    unfold widths
    simp only [h.prices.mem_iff]
  rw [hasEdges_iff_isGreatest, hasEdges_iff_isGreatest, hheights, hwidths]

theorem RateBeyond.of_reordered (h : c.Reordered c') {width height m : Float} {damper : Bool}
    (hm : c.RateBeyond tableId width height damper m) :
    c'.RateBeyond tableId width height damper m := by
  have hwide : c.BeyondWidth tableId width ↔ c'.BeyondWidth tableId width := by
    unfold BeyondWidth
    simp only [hasEdges_iff h]
  have hhigh : c.BeyondHeight tableId height ↔ c'.BeyondHeight tableId height := by
    unfold BeyondHeight
    simp only [hasEdges_iff h]
  cases hm with
  | wide hw hh hrate =>
    rw [hwide] at hw
    rw [hhigh] at hh
    exact .wide hw hh ((nearestRate_iff h.columnMultipliers).1 hrate)
  | high hw hh hrate =>
    rw [hwide] at hw
    rw [hhigh] at hh
    exact .high hw hh ((nearestRate_iff h.rowMultipliers).1 hrate)
  | corner hw hh hrate =>
    rw [hwide] at hw
    rw [hhigh] at hh
    simp only [nearestRate_iff h.rowMultipliers, nearestRate_iff h.columnMultipliers] at hrate
    exact .corner hw hh hrate

/-- The rate beyond the edges is made of the entries and not of their order. -/
theorem exceededRate?_eq_of_reordered (hc : c.Unambiguous) (h : c.Reordered c') (tableId : Int)
    (width height : Float) (damper : Bool) :
    c.exceededRate? tableId width height damper = c'.exceededRate? tableId width height damper := by
  obtain ⟨prices, prices', hprices, hprices', -⟩ := h.prices
  obtain ⟨rows, rows', hrows, hrows', -⟩ := h.rowMultipliers
  obtain ⟨columns, columns', hcolumns, hcolumns', -⟩ := h.columnMultipliers
  have hnumeric := h.numeric hc.numeric
  obtain ⟨found, hfound⟩ :=
    exists_exceededRate? hc.numeric hprices hrows hcolumns tableId width height damper
  obtain ⟨found', hfound'⟩ :=
    exists_exceededRate? hnumeric hprices' hrows' hcolumns' tableId width height damper
  -- Both rates are described by the entries alone, and those are the same.
  have hiff : ∀ m, found = some m ↔ found' = some m := by
    intro m
    calc found = some m ↔ c.exceededRate? tableId width height damper = .ok (some m) := by
          rw [hfound, Except.ok.injEq]
      _ ↔ c.RateBeyond tableId width height damper m :=
          exceededRate?_eq_some_iff hc.numeric hc.keys hprices hrows hcolumns
      _ ↔ c'.RateBeyond tableId width height damper m := ⟨.of_reordered h, .of_reordered h.symm⟩
      _ ↔ c'.exceededRate? tableId width height damper = .ok (some m) :=
          (exceededRate?_eq_some_iff hnumeric (h.uniqueKeys hc.keys) hprices' hrows' hcolumns').symm
      _ ↔ found' = some m := by rw [hfound', Except.ok.injEq]
  rw [hfound, hfound', Option.ext hiff]

/-! ### The largest size within another one -/

/-- Rows of a table with equal sides are one row. -/
theorem eq_of_sides (hc : (c.prices.getD []).Pairwise fun a b ↦ ¬ a.SameRectangle b)
    {rows : List (PriceRow Float)} (hrows : c.rowsOf tableId = .ok rows) {a b : PriceRow Float}
    (ha : a ∈ rows) (hb : b ∈ rows) {ah aw bh bw : Float} (hah : a.height = some ah)
    (hbh : b.height = some bh) (hheight : (ah == bh) = true) (haw : a.width = some aw)
    (hbw : b.width = some bw) (hwidth : (aw == bw) = true) : a = b := by
  refine eq_of_alike (fun _ _ ↦ PriceRow.SameRectangle.symm) (pairwise_rowsOf hrows hc) ha hb
    ⟨⟨tableId_eq_of_mem hrows ha hb, ?_, ?_, ?_⟩, ?_⟩
  · rw [hah]
    rfl
  · rw [hah, hbh]
    exact hheight
  · rw [haw, hbw]
    exact hwidth
  · rw [haw]
    rfl

/-- By what rows of two sides are compared from the largest down: height, width and id. -/
def sizeKey (row : PriceRow Float) : ℤ ×ₗ ℤ ×ₗ ℤ :=
  toLex (-row.height.elim 0 place, toLex (-row.width.elim 0 place, -row.priceId))

theorem isAtMost_iff {x : Option Float} {requested : Float} :
    isAtMost x requested = true ↔ ∃ y, x = some y ∧ y ≤ requested := by
  cases x with
  | none => simp [isAtMost]
  | some y => simp [isAtMost]

theorem rowBefore_eq {a b : PriceRow Float} {ah aw bh bw : Float} (hah : a.height = some ah)
    (haw : a.width = some aw) (hbh : b.height = some bh) (hbw : b.width = some bw)
    (hahn : IsNumber ah) (hawn : IsNumber aw) (hbhn : IsNumber bh) (hbwn : IsNumber bw) :
    rowBefore b a = decide (sizeKey a < sizeKey b) := by
  unfold rowBefore sizeKey lowerId
  simp only [hah, haw, hbh, hbw, columnBefore, Option.elim_some, decide_lt_eq hbhn hahn,
    decide_lt_eq hahn hbhn, decide_lt_eq hbwn hawn, decide_lt_eq hawn hbwn]
  rw [Bool.eq_iff_iff]
  simp only [Bool.or_eq_true, Bool.and_eq_true, Bool.not_eq_true', decide_eq_true_eq,
    decide_eq_false_iff_not, Prod.Lex.toLex_lt_toLex]
  omega

/-- The sides of a row within a size, which are numbers. -/
theorem exists_sides_of_isAtMost {row : PriceRow Float} {height width : Float}
    (h : (isAtMost row.height height && isAtMost row.width width) = true) :
    ∃ y x, row.height = some y ∧ row.width = some x ∧ y ≤ height ∧ x ≤ width ∧
      IsNumber y ∧ IsNumber x := by
  rw [Bool.and_eq_true, isAtMost_iff, isAtMost_iff] at h
  obtain ⟨⟨y, hy, hyle⟩, x, hx, hxle⟩ := h
  exact ⟨y, x, hy, hx, hyle, hxle, (le_iff.1 hyle).1, (le_iff.1 hxle).1⟩

theorem closestPrice?_eq_of_reordered (hc : c.Unambiguous) (h : c.Reordered c') (tableId : Int)
    (height width : Float) :
    c.closestPrice? tableId height width = c'.closestPrice? tableId height width := by
  obtain ⟨rows, rows', hrows, hrows', hperm⟩ := h.rowsOf tableId
  have hsized : ∀ a ∈ rows.filter fun row ↦ isAtMost row.height height && isAtMost row.width width,
      a ∈ rows ∧ ∃ y x, a.height = some y ∧ a.width = some x ∧ IsNumber y ∧ IsNumber x := by
    intro a ha
    obtain ⟨hmem, hwithin⟩ := List.mem_filter.1 ha
    obtain ⟨y, x, hy, hx, -, -, hyn, hxn⟩ := exists_sides_of_isAtMost hwithin
    exact ⟨hmem, y, x, hy, hx, hyn, hxn⟩
  have hfound : foremost? (fun a b ↦ rowBefore b a)
        (rows.filter fun row ↦ isAtMost row.height height && isAtMost row.width width) =
      foremost? (fun a b ↦ rowBefore b a)
        (rows'.filter fun row ↦ isAtMost row.height height && isAtMost row.width width) := by
    refine foremost?_eq_of_perm sizeKey ?_ ?_ (hperm.filter _)
    · intro a ha b hb
      obtain ⟨-, ah, aw, hah, haw, hahn, hawn⟩ := hsized a ha
      obtain ⟨-, bh, bw, hbh, hbw, hbhn, hbwn⟩ := hsized b hb
      exact rowBefore_eq hah haw hbh hbw hahn hawn hbhn hbwn
    · -- Equal sides already make one row, so the id never decides.
      intro a ha b hb hkey
      obtain ⟨hamem, ah, aw, hah, haw, hahn, hawn⟩ := hsized a ha
      obtain ⟨hbmem, bh, bw, hbh, hbw, hbhn, hbwn⟩ := hsized b hb
      obtain ⟨hheight, hrest⟩ := Prod.mk.inj (toLex.injective hkey)
      obtain ⟨hwidth, -⟩ := Prod.mk.inj (toLex.injective hrest)
      rw [hah, hbh] at hheight
      rw [haw, hbw] at hwidth
      exact eq_of_sides hc.rectangles hrows hamem hbmem hah hbh
        (beq_iff.2 ⟨hahn, hbhn, neg_inj.1 hheight⟩) haw hbw
        (beq_iff.2 ⟨hawn, hbwn, neg_inj.1 hwidth⟩)
  unfold closestPrice?
  rw [hrows, hrows']
  simp only [Except.map, hfound]

/-! ### Listed sizes -/

theorem rectangularSizes_perm (h : c.Reordered c') (tableId : Int) :
    ∃ sizes sizes', c.rectangularSizes tableId = .ok sizes ∧
      c'.rectangularSizes tableId = .ok sizes' ∧ sizes.Perm sizes' := by
  obtain ⟨rows, rows', hrows, hrows', hperm⟩ := h.rowsOf tableId
  unfold rectangularSizes
  rw [hrows, hrows']
  refine ⟨_, _, rfl, rfl, List.Perm.filterMap _ ?_⟩
  exact (List.mergeSort_perm _ _).trans (hperm.trans (List.mergeSort_perm _ _).symm)

theorem roundUpSize?_eq_of_reordered (hc : c.Unambiguous) (h : c.Reordered c') (tableId : Int)
    (width height : Float) :
    (c.rectangularSizes tableId).map (roundUpSize? · width height) =
      (c'.rectangularSizes tableId).map (roundUpSize? · width height) := by
  obtain ⟨sizes, sizes', hsizes, hsizes', hperm⟩ := rectangularSizes_perm h tableId
  obtain ⟨rows, -, hrows, -, -⟩ := h.rowsOf tableId
  obtain ⟨listed, hlisted, hmem⟩ := mem_rectangularSizes hrows
  obtain rfl : listed = sizes := Except.ok.inj (hlisted.symm.trans hsizes)
  rw [hsizes, hsizes']
  refine congrArg Except.ok (roundUpSize?_eq_of_perm ?_ ?_ hperm)
  · intro size hsize
    obtain ⟨row, hrow, hwidth, hheight⟩ := (hmem size).1 hsize
    have hprice := ((mem_rowsOf hrows).1 hrow).1
    exact ⟨hc.widths row hprice _ hwidth, hc.heights row hprice _ hheight⟩
  · intro a ha b hb hwidth hheight
    obtain ⟨row, hrow, hrw, hrh⟩ := (hmem _).1 ha
    obtain ⟨row', hrow', hrw', hrh'⟩ := (hmem _).1 hb
    obtain rfl := eq_of_sides hc.rectangles hrows hrow hrow' hrh hrh' hheight hrw hrw' hwidth
    exact Prod.ext (Option.some.inj (hrw.symm.trans hrw')) (Option.some.inj (hrh.symm.trans hrh'))

theorem heights_perm {rows rows' : List (PriceRow Float)} (h : rows.Perm rows')
    (p : PriceRow Float → Bool) :
    (increasing ((rows.filter p).filterMap PriceRow.height)).Perm
      (increasing ((rows'.filter p).filterMap PriceRow.height)) :=
  (List.mergeSort_perm _ _).trans
    (((h.filter p).filterMap _).trans (List.mergeSort_perm _ _).symm)

/-- Sizes that are listed by height are equal only if they are one, where rows of equal height are
alike and no two rows are. -/
theorem eq_of_listed {rows : List (PriceRow Float)} {p : PriceRow Float → Bool}
    {alike : PriceRow Float → PriceRow Float → Prop} (hsymm : ∀ a b, alike a b → alike b a)
    (hunique : rows.Pairwise fun a b ↦ ¬ alike a b)
    (halike : ∀ a ∈ rows, ∀ b ∈ rows, p a = true → p b = true → a.height.isSome = true →
      sameColumn a.height b.height → alike a b) :
    ∀ x ∈ increasing ((rows.filter p).filterMap PriceRow.height),
      ∀ y ∈ increasing ((rows.filter p).filterMap PriceRow.height), (x == y) = true → x = y := by
  have hmem : ∀ x, x ∈ increasing ((rows.filter p).filterMap PriceRow.height) →
      ∃ row ∈ rows, p row = true ∧ row.height = some x := by
    intro x hx
    rw [increasing, List.mem_mergeSort, List.mem_filterMap] at hx
    obtain ⟨row, hrow, hheight⟩ := hx
    obtain ⟨hrow, hp⟩ := List.mem_filter.1 hrow
    exact ⟨row, hrow, hp, hheight⟩
  intro x hx y hy hxy
  obtain ⟨row, hrow, hp, hheight⟩ := hmem x hx
  obtain ⟨row', hrow', hp', hheight'⟩ := hmem y hy
  have hsome : row.height.isSome = true := by
    rw [hheight]
    rfl
  have hsame : sameColumn row.height row'.height := by
    rw [hheight, hheight']
    exact hxy
  obtain rfl := eq_of_alike hsymm hunique hrow hrow' (halike row hrow row' hrow' hp hp' hsome hsame)
  exact Option.some.inj (hheight.symm.trans hheight')

theorem roundUpDiameter?_eq_of_reordered (hc : c.Unambiguous) (h : c.Reordered c') (tableId : Int)
    (requested : Float) :
    (c.diameters tableId).map (roundUpValue? · requested) =
      (c'.diameters tableId).map (roundUpValue? · requested) := by
  obtain ⟨rows, rows', hrows, hrows', hperm⟩ := h.rowsOf tableId
  unfold diameters
  rw [hrows, hrows']
  refine congrArg Except.ok (roundUpValue?_eq_of_perm ?_ (heights_perm hperm _))
  refine eq_of_listed (fun _ _ ↦ PriceRow.SameSize.symm) (pairwise_rowsOf hrows hc.sizes) ?_
  intro a ha b hb hpa hpb hsome hheight
  rw [Option.isNone_iff_eq_none] at hpa hpb
  refine ⟨tableId_eq_of_mem hrows ha hb, hsome, hheight, ?_⟩
  rw [hpa, hpb]
  trivial

theorem roundUpFoot?_eq_of_reordered (hc : c.Unambiguous) (h : c.Reordered c') (tableId : Int)
    (requested : Float) :
    (c.footSizes tableId).map (roundUpValue? · requested) =
      (c'.footSizes tableId).map (roundUpValue? · requested) := by
  obtain ⟨rows, rows', hrows, hrows', hperm⟩ := h.rowsOf tableId
  unfold footSizes
  rw [hrows, hrows']
  refine congrArg Except.ok (roundUpValue?_eq_of_perm ?_ (heights_perm hperm _))
  refine eq_of_listed (fun _ _ ↦ PriceRow.SameFootSize.symm) (pairwise_rowsOf hrows hc.footSizes) ?_
  intro a ha b hb hpa hpb hsome hheight
  exact ⟨tableId_eq_of_mem hrows ha hb, hsome, hheight, hpa, hpb⟩

/-! ### Models and shapes -/

theorem models_eq_of_reordered (h : c.Reordered c') : c.models = c'.models := by
  obtain ⟨products, products', hproducts, hproducts', hperm⟩ := h.products
  unfold models productRows
  rw [hproducts, hproducts']
  exact congrArg Except.ok (Text.sortedNames_eq_of_perm (hperm.map _))

theorem anyRow_eq_of_reordered (h : c.Reordered c') (model : String)
    (property : PriceRow Float → Bool) : c.anyRow model property = c'.anyRow model property := by
  obtain ⟨products, products', hproducts, hproducts', hproductsPerm⟩ := h.products
  obtain ⟨prices, prices', hprices, hprices', hpricesPerm⟩ := h.prices
  unfold anyRow productRows priceRows
  rw [hproducts, hproducts', hprices, hprices']
  by_cases hblank : (Text.trimmed model).isEmpty = true
  · rw [if_pos hblank, if_pos hblank]
  · rw [if_neg hblank, if_neg hblank]
    simp only [table, ok_bind]
    rw [hproductsPerm.any_eq]
    simp only [hpricesPerm.any_eq]

/-- The least of a list of whole numbers. -/
theorem least_eq_of_perm {ids ids' : List Int} (h : ids.Perm ids') :
    foremost? (fun a b ↦ decide (a < b)) ids = foremost? (fun a b ↦ decide (a < b)) ids' :=
  foremost?_eq_of_perm id (fun _ _ _ _ ↦ rfl) (fun _ _ _ _ hid ↦ hid) h

theorem dimensionlessPriceId?_eq_of_reordered (hc : c.Unambiguous) (h : c.Reordered c')
    (model : String) : c.dimensionlessPriceId? model = c'.dimensionlessPriceId? model := by
  unfold dimensionlessPriceId?
  rw [← product?_eq_of_reordered hc h]
  refine bind_congr fun found ↦ ?_
  cases found with
  | none => rfl
  | some product =>
    obtain ⟨products, products', hproducts, hproducts', hproductsPerm⟩ := h.products
    obtain ⟨rows, rows', hrows, hrows', hrowsPerm⟩ := h.rowsOf product.tableId
    simp only [productRows, hproducts, hproducts', table, hrows, hrows', ok_bind]
    rw [least_eq_of_perm ((hproductsPerm.filter _).map Product.productId),
      least_eq_of_perm ((hrowsPerm.filter _).map PriceRow.priceId)]

/-! ### All answers -/

/-- Two catalogs answer every question of the pricing engine alike. -/
structure SameAnswers (c c' : Catalog Float) : Prop where
  models : c.models = c'.models
  product : ∀ model, c.product? model = c'.product? model
  anyRow : ∀ model property, c.anyRow model property = c'.anyRow model property
  priceAtDiameter : ∀ tableId diameter,
    c.priceAtDiameter? tableId diameter = c'.priceAtDiameter? tableId diameter
  priceAt : ∀ tableId height width,
    c.priceAt? tableId height width = c'.priceAt? tableId height width
  closestPrice : ∀ tableId height width,
    c.closestPrice? tableId height width = c'.closestPrice? tableId height width
  exceededRate : ∀ tableId width height damper,
    c.exceededRate? tableId width height damper = c'.exceededRate? tableId width height damper
  footRate : ∀ tableId size, c.footRate? tableId size = c'.footRate? tableId size
  priceRow : ∀ priceId, c.priceRow? priceId = c'.priceRow? priceId
  dimensionlessPriceId : ∀ model, c.dimensionlessPriceId? model = c'.dimensionlessPriceId? model
  roundedSize : ∀ tableId width height,
    (c.rectangularSizes tableId).map (roundUpSize? · width height) =
      (c'.rectangularSizes tableId).map (roundUpSize? · width height)
  roundedDiameter : ∀ tableId requested,
    (c.diameters tableId).map (roundUpValue? · requested) =
      (c'.diameters tableId).map (roundUpValue? · requested)
  roundedFoot : ∀ tableId requested,
    (c.footSizes tableId).map (roundUpValue? · requested) =
      (c'.footSizes tableId).map (roundUpValue? · requested)

theorem sameAnswers_of_reordered (hc : c.Unambiguous) (h : c.Reordered c') : c.SameAnswers c' where
  models := models_eq_of_reordered h
  product := product?_eq_of_reordered hc h
  anyRow := anyRow_eq_of_reordered h
  priceAtDiameter := priceAtDiameter?_eq_of_reordered hc h
  priceAt := priceAt?_eq_of_reordered hc h
  closestPrice := closestPrice?_eq_of_reordered hc h
  exceededRate := exceededRate?_eq_of_reordered hc h
  footRate := footRate?_eq_of_reordered hc h
  priceRow := priceRow?_eq_of_reordered hc h
  dimensionlessPriceId := dimensionlessPriceId?_eq_of_reordered hc h
  roundedSize := roundUpSize?_eq_of_reordered hc h
  roundedDiameter := roundUpDiameter?_eq_of_reordered hc h
  roundedFoot := roundUpFoot?_eq_of_reordered hc h

end Catalog

end Ventilation
