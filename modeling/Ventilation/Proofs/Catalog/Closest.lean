import Ventilation.Pricing.HandGear
import Ventilation.Proofs.Catalog.RowOrder

/-!
# The largest size within a size

Where no table has two rows at one rectangle, the row that `closestPrice?` answers with is the one
of the largest rectangle within the requested one, `closestPrice?_eq_some_iff`. A row at the
requested rectangle itself is that row, so that the lookup of a rectangle is a shortcut: a panel
costs what its closest size costs, whether or not it is looked up by its own size before.
-/

set_option autoImplicit false
set_option relaxedAutoImplicit false

namespace Ventilation

open Binary64

namespace PriceRow

/-- A row of two sides, each at or below the given one. -/
def Within (height width : Float) (row : PriceRow Float) : Prop :=
  ∃ y x, row.height = some y ∧ row.width = some x ∧ y ≤ height ∧ x ≤ width

/-- The row is higher than the other one, or equally high and wider. -/
def IsLarger (row other : PriceRow Float) : Prop :=
  ∃ y x y' x', row.height = some y ∧ row.width = some x ∧ other.height = some y' ∧
    other.width = some x' ∧ (y' < y ∨ (y' == y) = true ∧ x' < x)

end PriceRow

namespace Catalog

variable {c : Catalog Float} {tableId : Int} {height width : Float}
  {rows : List (PriceRow Float)} {row row' : PriceRow Float}

/-- The largest row of a table within a size, by height and then by width. -/
structure IsClosest (c : Catalog Float) (tableId : Int) (height width : Float)
    (row : PriceRow Float) : Prop where
  mem : row ∈ c.prices.getD []
  tableId_eq : row.tableId = tableId
  within : row.Within height width
  not_isLarger : ∀ other ∈ c.prices.getD [], other.tableId = tableId →
    other.Within height width → ¬ other.IsLarger row

/-! ### The closest row -/

theorem within_iff :
    row.Within height width ↔ (isAtMost row.height height && isAtMost row.width width) = true := by
  constructor
  · rintro ⟨y, x, hy, hx, hyle, hxle⟩
    rw [Bool.and_eq_true, isAtMost_iff, isAtMost_iff]
    exact ⟨⟨y, hy, hyle⟩, x, hx, hxle⟩
  · intro h
    obtain ⟨y, x, hy, hx, hyle, hxle, -, -⟩ := exists_sides_of_isAtMost h
    exact ⟨y, x, hy, hx, hyle, hxle⟩

theorem sizeKey_lt_of_isLarger (h : row.IsLarger row') : sizeKey row < sizeKey row' := by
  obtain ⟨y, x, y', x', hy, hx, hy', hx', hlarger⟩ := h
  unfold sizeKey
  rw [hy, hx, hy', hx']
  simp only [Option.elim_some, Prod.Lex.toLex_lt_toLex]
  rcases hlarger with hlt | ⟨heq, hlt⟩
  · exact .inl (neg_lt_neg (lt_iff.1 hlt).2.2)
  · exact .inr ⟨congrArg Neg.neg (beq_iff.1 heq).2.2.symm,
      .inl (neg_lt_neg (lt_iff.1 hlt).2.2)⟩

theorem isClosest_of_foremost? (hrows : c.rowsOf tableId = .ok rows)
    (h : foremost? (fun a b ↦ rowBefore b a)
      (rows.filter fun row ↦ isAtMost row.height height && isAtMost row.width width) = some row) :
    c.IsClosest tableId height width row := by
  obtain ⟨hrow, hwithin⟩ := List.mem_filter.1 (mem_of_foremost? h)
  obtain ⟨hmem, htable⟩ := (mem_rowsOf hrows).1 hrow
  refine ⟨hmem, htable, within_iff.2 hwithin, fun other hother hother' hin hlarger ↦ ?_⟩
  have hleast := key_le_of_foremost? sizeKey (fun a ha b hb ↦ ?_) h other
    (List.mem_filter.2 ⟨(mem_rowsOf hrows).2 ⟨hother, hother'⟩, within_iff.1 hin⟩)
  · exact (sizeKey_lt_of_isLarger hlarger).not_ge hleast
  · obtain ⟨ah, aw, hah, haw, -, -, hahn, hawn⟩ :=
      exists_sides_of_isAtMost (List.mem_filter.1 ha).2
    obtain ⟨bh, bw, hbh, hbw, -, -, hbhn, hbwn⟩ :=
      exists_sides_of_isAtMost (List.mem_filter.1 hb).2
    exact rowBefore_eq hah haw hbh hbw hahn hawn hbhn hbwn

/-- There is one closest row, as two would have equal sides. -/
theorem IsClosest.eq (hc : (c.prices.getD []).Pairwise fun a b ↦ ¬ a.SameRectangle b)
    (hrows : c.rowsOf tableId = .ok rows) (h : c.IsClosest tableId height width row)
    (h' : c.IsClosest tableId height width row') : row = row' := by
  obtain ⟨y, x, hy, hx, hyle, hxle⟩ := h.within
  obtain ⟨y', x', hy', hx', hyle', hxle'⟩ := h'.within
  have hlarger := h'.not_isLarger row h.mem h.tableId_eq h.within
  have hlarger' := h.not_isLarger row' h'.mem h'.tableId_eq h'.within
  have hheight : (y == y') = true := by
    refine beq_of_not_lt (le_iff.1 hyle).1 (le_iff.1 hyle').1 (fun hlt ↦ ?_) fun hlt ↦ ?_
    · exact hlarger' ⟨y', x', y, x, hy', hx', hy, hx, .inl hlt⟩
    · exact hlarger ⟨y, x, y', x', hy, hx, hy', hx', .inl hlt⟩
  have hwidth : (x == x') = true := by
    refine beq_of_not_lt (le_iff.1 hxle).1 (le_iff.1 hxle').1 (fun hlt ↦ ?_) fun hlt ↦ ?_
    · exact hlarger' ⟨y', x', y, x, hy', hx', hy, hx, .inr ⟨hheight, hlt⟩⟩
    · exact hlarger ⟨y, x, y', x', hy, hx, hy', hx', .inr ⟨beq_comm hheight, hlt⟩⟩
  exact eq_of_sides hc hrows ((mem_rowsOf hrows).2 ⟨h.mem, h.tableId_eq⟩)
    ((mem_rowsOf hrows).2 ⟨h'.mem, h'.tableId_eq⟩) hy hy' hheight hx hx' hwidth

theorem foremost?_of_isClosest (hc : (c.prices.getD []).Pairwise fun a b ↦ ¬ a.SameRectangle b)
    (hrows : c.rowsOf tableId = .ok rows) (h : c.IsClosest tableId height width row) :
    foremost? (fun a b ↦ rowBefore b a)
      (rows.filter fun row ↦ isAtMost row.height height && isAtMost row.width width) =
        some row := by
  have hrow : row ∈ rows.filter fun row ↦ isAtMost row.height height && isAtMost row.width width :=
    List.mem_filter.2 ⟨(mem_rowsOf hrows).2 ⟨h.mem, h.tableId_eq⟩, within_iff.1 h.within⟩
  obtain ⟨found, hfound⟩ : ∃ found, foremost? (fun a b ↦ rowBefore b a) _ = some found :=
    exists_foremost? hrow
  rw [hfound, (isClosest_of_foremost? hrows hfound).eq hc hrows h]

/-- What is found is the closest row, if that has a price. -/
theorem closestPrice?_eq_some_iff {closest : ClosestPrice Float}
    (hc : (c.prices.getD []).Pairwise fun a b ↦ ¬ a.SameRectangle b) :
    c.closestPrice? tableId height width = .ok (some closest) ↔
      ∃ row, c.IsClosest tableId height width row ∧ row.height = some closest.height ∧
        row.width = some closest.width ∧ row.tablePrice? = some closest.price := by
  unfold closestPrice?
  constructor
  · intro h
    obtain ⟨rows, hrows, hfound⟩ := map_eq_ok_iff.1 h
    obtain ⟨row, hrow, hsides⟩ := Option.bind_eq_some_iff.1 hfound
    obtain ⟨y, hy, hsides⟩ := Option.bind_eq_some_iff.1 hsides
    obtain ⟨x, hx, hprice⟩ := Option.bind_eq_some_iff.1 hsides
    obtain ⟨price, htable, rfl⟩ := Option.map_eq_some_iff.1 hprice
    exact ⟨row, isClosest_of_foremost? hrows hrow, hy, hx, htable⟩
  · rintro ⟨row, hclosest, hheight, hwidth, hprice⟩
    obtain ⟨rows, hrows⟩ := exists_rowsOf_of_mem hclosest.mem tableId
    rw [hrows]
    simp only [Except.map, foremost?_of_isClosest hc hrows hclosest, Option.bind_some, hheight,
      hwidth, hprice, Option.map_some]

/-! ### The shortcut -/

/-- A row at the requested rectangle is the closest one. -/
theorem isClosest_of_isAt (hrows : c.rowsOf tableId = .ok rows) (hrow : row ∈ rows)
    (hheight : isAt row.height height = true) (hwidth : isAt row.width width = true) :
    c.IsClosest tableId height width row := by
  obtain ⟨hmem, htable⟩ := (mem_rowsOf hrows).1 hrow
  obtain ⟨y, hy, hyeq⟩ := isAt_iff.1 hheight
  obtain ⟨x, hx, hxeq⟩ := isAt_iff.1 hwidth
  refine ⟨hmem, htable, ⟨y, x, hy, hx, le_of_beq hyeq, le_of_beq hxeq⟩, ?_⟩
  rintro other - - ⟨z, w, hz, hw, hzle, hwle⟩ ⟨z', w', y', x', hz', hw', hy', hx', hlarger⟩
  obtain rfl := Option.some.inj (hz.symm.trans hz')
  obtain rfl := Option.some.inj (hw.symm.trans hw')
  obtain rfl := Option.some.inj (hy.symm.trans hy')
  obtain rfl := Option.some.inj (hx.symm.trans hx')
  rcases hlarger with hlt | ⟨-, hlt⟩
  · exact not_lt_of_beq hyeq hzle hlt
  · exact not_lt_of_beq hxeq hwle hlt

theorem exists_row_of_priceAt? {price : TablePrice Float}
    (h : c.priceAt? tableId height width = .ok (some price)) :
    ∃ rows row, c.rowsOf tableId = .ok rows ∧ row ∈ rows ∧ isAt row.height height = true ∧
      isAt row.width width = true ∧ row.tablePrice? = some price := by
  obtain ⟨rows, hrows, hfound⟩ := map_eq_ok_iff.1 h
  obtain ⟨row, hrow, hprice⟩ := Option.bind_eq_some_iff.1 hfound
  obtain ⟨hmem, hat⟩ := List.mem_filter.1 (mem_of_foremost? hrow)
  rw [Bool.and_eq_true] at hat
  exact ⟨rows, row, hrows, hmem, hat.1, hat.2, hprice⟩

/-- A rectangle that has a price is its own closest size. -/
theorem closestPrice?_of_priceAt?
    (hc : (c.prices.getD []).Pairwise fun a b ↦ ¬ a.SameRectangle b) {price : TablePrice Float}
    (h : c.priceAt? tableId height width = .ok (some price)) :
    ∃ closest, c.closestPrice? tableId height width = .ok (some closest) ∧
      (closest.height == height) = true ∧ (closest.width == width) = true ∧
      closest.price = price := by
  obtain ⟨rows, row, hrows, hrow, hheight, hwidth, hprice⟩ := exists_row_of_priceAt? h
  obtain ⟨y, hy, hyeq⟩ := isAt_iff.1 hheight
  obtain ⟨x, hx, hxeq⟩ := isAt_iff.1 hwidth
  have hclosest := isClosest_of_isAt hrows hrow hheight hwidth
  exact ⟨⟨y, x, price⟩, (closestPrice?_eq_some_iff hc).2 ⟨row, hclosest, hy, hx, hprice⟩, hyeq,
    hxeq, rfl⟩

/-- A missing price list is missed by both lookups. -/
theorem closestPrice?_of_error {error : CatalogError}
    (h : c.priceAt? tableId height width = .error error) :
    c.closestPrice? tableId height width = .error error := by
  unfold priceAt? at h
  unfold closestPrice?
  cases hrows : c.rowsOf tableId with
  | error _ =>
    rw [hrows] at h
    obtain rfl := Except.error.inj h
    rfl
  | ok rows =>
    rw [hrows] at h
    cases h

theorem panelPrice?_eq_closestPrice?
    (hc : (c.prices.getD []).Pairwise fun a b ↦ ¬ a.SameRectangle b) (f : HandGearFamily Float)
    (tableId : Int) (d : Dimensions Float) :
    f.panelPrice? c tableId d = (c.closestPrice? tableId (f.panelSize d).height
      (f.panelSize d).width).map (Option.map ClosestPrice.price) := by
  unfold HandGearFamily.panelPrice?
  dsimp only
  cases hat : c.priceAt? tableId (f.panelSize d).height (f.panelSize d).width with
  | error error =>
    rw [closestPrice?_of_error hat]
    rfl
  | ok found =>
    cases found with
    | none =>
      rw [ok_bind]
      cases c.closestPrice? tableId (f.panelSize d).height (f.panelSize d).width <;> rfl
    | some price =>
      obtain ⟨closest, hclosest, -, -, rfl⟩ := closestPrice?_of_priceAt? hc hat
      rw [hclosest]
      rfl

/-- Where no table has two rows at one rectangle, the closest price to a size is that of the largest
row within it. A rectangle with a price of its own is its own closest size, and a panel costs what
its closest size costs. -/
theorem closestPrice?_of_unique_rectangles (c : Catalog Float)
    (hc : (c.prices.getD []).Pairwise fun a b ↦ ¬ a.SameRectangle b) (tableId : Int) :
    (∀ (height width : Float) (closest : ClosestPrice Float),
      c.closestPrice? tableId height width = .ok (some closest) ↔
        ∃ row, c.IsClosest tableId height width row ∧ row.height = some closest.height ∧
          row.width = some closest.width ∧ row.tablePrice? = some closest.price) ∧
    (∀ (height width : Float) (price : TablePrice Float),
      c.priceAt? tableId height width = .ok (some price) →
        ∃ closest, c.closestPrice? tableId height width = .ok (some closest) ∧
          (closest.height == height) = true ∧ (closest.width == width) = true ∧
          closest.price = price) ∧
    ∀ (f : HandGearFamily Float) (d : Dimensions Float), f.panelPrice? c tableId d =
      (c.closestPrice? tableId (f.panelSize d).height (f.panelSize d).width).map
        (Option.map ClosestPrice.price) :=
  ⟨fun _ _ _ ↦ closestPrice?_eq_some_iff hc, fun _ _ _ ↦ closestPrice?_of_priceAt? hc,
    fun f d ↦ panelPrice?_eq_closestPrice? hc f tableId d⟩

/-- A diameter, a rectangle without a price and two with one. -/
def panelList : Catalog Float where
  products := none
  prices := some [⟨1, 1, some 30, none, some 70, none, none⟩,
    ⟨2, 1, some 30, some 50, some 90, none, none⟩, ⟨3, 1, some 30, some 60, some 110, none, none⟩,
    ⟨4, 1, some 40, some 60, none, none, none⟩]
  rowMultipliers := none
  columnMultipliers := none

/-- The standard panel of an item of 120 by 90 has a row of its own, one of 110 by 90 has not. -/
theorem closestPrice?_of_unique_rectangles_panelList :
    (∃ closest, panelList.closestPrice? 1 30 60 = .ok (some closest) ∧
      closest.price = ⟨some 110, none⟩) ∧
    (∃ row, panelList.IsClosest 1 30 55 row ∧ row.tablePrice? = some ⟨some 90, none⟩) ∧
    HandGearFamily.standard.panelPrice? panelList 1 ⟨110, 90⟩ =
      (panelList.closestPrice? 1 30 55).map (Option.map ClosestPrice.price) := by
  obtain ⟨hclosest, hexact, hpanel⟩ :=
    closestPrice?_of_unique_rectangles panelList (by decide +kernel) 1
  obtain ⟨closest, hfound, -, -, hprice⟩ :=
    hexact 30 60 ⟨some 110, none⟩ (eq_ok_of_toOption (by decide +kernel))
  have hbelow : (panelList.closestPrice? 1 30 55).map (Option.map ClosestPrice.price) =
      .ok (some ⟨some 90, none⟩) := eq_ok_of_toOption (by decide +kernel)
  obtain ⟨_, hbelow, hmapped⟩ := map_eq_ok_iff.1 hbelow
  obtain ⟨closest', rfl, hprice'⟩ := Option.map_eq_some_iff.1 hmapped
  obtain ⟨row, hrow, -, -, hown⟩ := (hclosest 30 55 closest').1 hbelow
  have hsize : HandGearFamily.standard.panelSize ⟨110, 90⟩ = ⟨55, 30⟩ := by decide +kernel
  have hshort := hpanel .standard ⟨110, 90⟩
  rw [hsize] at hshort
  exact ⟨⟨closest, hfound, hprice⟩, ⟨row, hrow, hown.trans (congrArg some hprice')⟩, hshort⟩

end Catalog

end Ventilation
