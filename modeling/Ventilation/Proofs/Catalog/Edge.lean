import Mathlib.Order.Bounds.Basic
import Ventilation.Proofs.Catalog.Lookup
import Ventilation.Proofs.Pricing.Answer

/-!
# Rates beyond the edges of a table

A size is beyond an edge if it exceeds the greatest height or the greatest width of its table. What
is charged there is stated by `RateBeyond`, one case for each way to leave the table, and
`exceededRate?_eq_some_iff` finds that rate and no other.
-/

set_option autoImplicit false
set_option relaxedAutoImplicit false

namespace Ventilation

open Binary64

/-! ### Entries at a key -/

namespace EdgeRate

/-- Two entries of one table at one key. -/
def SameKey (a b : EdgeRate Float) : Prop := a.tableId = b.tableId ∧ (a.key == b.key) = true

theorem SameKey.symm {a b : EdgeRate Float} (h : a.SameKey b) : b.SameKey a :=
  ⟨h.1.symm, beq_comm h.2⟩

instance (a b : EdgeRate Float) : Decidable (a.SameKey b) := inferInstanceAs (Decidable (_ ∧ _))

/-- The entry of a table with the greatest key among those that `within` admits. -/
structure IsNearest (rates : List (EdgeRate Float)) (tableId : Int) (within : Float → Prop)
    (rate : EdgeRate Float) : Prop where
  mem : rate ∈ rates
  tableId_eq : rate.tableId = tableId
  admitted : within rate.key
  greatest : ∀ other ∈ rates, other.tableId = tableId → within other.key → other.key ≤ rate.key

theorem isNearest_iff {rates : List (EdgeRate Float)} {tableId : Int} {within : Float → Prop}
    {rate : EdgeRate Float} : IsNearest rates tableId within rate ↔
      rate ∈ rates ∧ rate.tableId = tableId ∧ within rate.key ∧
        ∀ other ∈ rates, other.tableId = tableId → within other.key → other.key ≤ rate.key :=
  ⟨fun h ↦ ⟨h.mem, h.tableId_eq, h.admitted, h.greatest⟩, fun h ↦ ⟨h.1, h.2.1, h.2.2.1, h.2.2.2⟩⟩

/-- The rate at the nearest entry, for an item with or without damper. An entry that is empty there
has none, whatever entries lie below it. -/
def NearestRate (rates : List (EdgeRate Float)) (tableId : Int) (within : Float → Prop)
    (damper : Bool) (m : Float) : Prop :=
  ∃ rate, IsNearest rates tableId within rate ∧ rate.pick damper = some m

variable {rates : List (EdgeRate Float)} {tableId : Int} {admits : Float → Prop}
  {within : Float → Bool} {rate : EdgeRate Float} {damper : Bool} {m : Float}

theorem isNearest_of_edgeRate? (hkeys : ∀ rate ∈ rates, IsNumber rate.key)
    (hwithin : ∀ key, within key = true ↔ admits key)
    (h : Catalog.edgeRate? rates tableId within = some rate) :
    IsNearest rates tableId admits rate := by
  have hfilter : ∀ r, r ∈ (rates.filter fun r ↦ r.tableId = tableId && within r.key) ↔
      r ∈ rates ∧ r.tableId = tableId ∧ admits r.key := by
    intro r
    rw [List.mem_filter, Bool.and_eq_true, decide_eq_true_eq, hwithin]
  obtain ⟨hmem, htable, hadmitted⟩ := (hfilter rate).1 (mem_of_foremost? h)
  have hgreatest := Catalog.le_of_foremost?_greater EdgeRate.key
    (fun r hr ↦ hkeys r ((hfilter r).1 hr).1) h
  exact ⟨hmem, htable, hadmitted, fun other hother hotherTable hotherAdmitted ↦
    hgreatest other ((hfilter other).2 ⟨hother, hotherTable, hotherAdmitted⟩)⟩

theorem exists_edgeRate? (hwithin : ∀ key, within key = true ↔ admits key) (hmem : rate ∈ rates)
    (htable : rate.tableId = tableId) (hadmitted : admits rate.key) :
    ∃ found, Catalog.edgeRate? rates tableId within = some found := by
  apply exists_foremost? (x := rate)
  rw [List.mem_filter, Bool.and_eq_true, decide_eq_true_eq, hwithin]
  exact ⟨hmem, htable, hadmitted⟩

/-- With one entry at each key there is one nearest entry. -/
theorem IsNearest.eq (hunique : rates.Pairwise fun a b ↦ ¬ a.SameKey b) {other : EdgeRate Float}
    (h : IsNearest rates tableId admits rate) (hother : IsNearest rates tableId admits other) :
    rate = other := by
  have hle := hother.greatest rate h.mem h.tableId_eq h.admitted
  have hge := h.greatest other hother.mem hother.tableId_eq hother.admitted
  exact eq_of_alike (fun _ _ ↦ SameKey.symm) hunique h.mem hother.mem
    ⟨h.tableId_eq.trans hother.tableId_eq.symm, beq_of_le_of_le hle hge⟩

theorem edgeRate?_bind_pick_eq_some_iff (hkeys : ∀ rate ∈ rates, IsNumber rate.key)
    (hunique : rates.Pairwise fun a b ↦ ¬ a.SameKey b)
    (hwithin : ∀ key, within key = true ↔ admits key) :
    (Catalog.edgeRate? rates tableId within).bind (·.pick damper) = some m ↔
      NearestRate rates tableId admits damper m := by
  rw [Option.bind_eq_some_iff]
  constructor
  · rintro ⟨rate, hrate, hpick⟩
    exact ⟨rate, isNearest_of_edgeRate? hkeys hwithin hrate, hpick⟩
  · rintro ⟨rate, hrate, hpick⟩
    obtain ⟨found, hfound⟩ := exists_edgeRate? hwithin hrate.mem hrate.tableId_eq hrate.admitted
    obtain rfl := (isNearest_of_edgeRate? hkeys hwithin hfound).eq hunique hrate
    exact ⟨found, hfound, hpick⟩

/-- The rate of an entry that is found in a table is that of its nearest entry. -/
theorem edgeRate?_of_table {table : Option (List (EdgeRate Float))} (htable : table = some rates)
    (hkeys : ∀ rate ∈ table.getD [], IsNumber rate.key)
    (hunique : (table.getD []).Pairwise fun a b ↦ ¬ a.SameKey b)
    (hwithin : ∀ key, within key = true ↔ admits key) :
    (Catalog.edgeRate? rates tableId within).bind (·.pick damper) = some m ↔
      NearestRate (table.getD []) tableId admits damper m := by
  subst htable
  exact edgeRate?_bind_pick_eq_some_iff hkeys hunique hwithin

end EdgeRate

namespace Catalog

open EdgeRate

/-! ### The larger of two rates -/

private theorem larger_of_pos {x y : Float} (hx : 0 < x) (hy : 0 < y) :
    (Scalar.larger x y = x ∨ Scalar.larger x y = y) ∧
      x ≤ Scalar.larger x y ∧ y ≤ Scalar.larger x y := by
  obtain ⟨hxn, -⟩ := zero_lt_iff.1 hx
  obtain ⟨hyn, -⟩ := zero_lt_iff.1 hy
  have hself : (x == x) = true := beq_iff.2 ⟨hxn, hxn, rfl⟩
  unfold Scalar.larger
  rw [if_pos hself]
  by_cases hlt : x < y
  · rw [if_pos hlt]
    exact ⟨.inr rfl, le_iff.2 ⟨hxn, hyn, (lt_iff.1 hlt).2.2.le⟩, le_refl_of_isNumber hyn⟩
  · rw [if_neg hlt]
    have hle : place y ≤ place x := by
      rw [lt_iff] at hlt
      by_contra hle
      exact hlt ⟨hxn, hyn, by omega⟩
    exact ⟨.inl rfl, le_refl_of_isNumber hxn, le_iff.2 ⟨hyn, hxn, hle⟩⟩

/-- The positive ones of two rates that may be missing. -/
def PositiveRate (a b : Option Float) (x : Float) : Prop := (a = some x ∨ b = some x) ∧ 0 < x

private theorem filter_pos_eq_some_iff {a : Option Float} {x : Float} :
    a.filter (fun x ↦ decide (Scalar.ofNat 0 < x)) = some x ↔ a = some x ∧ 0 < x := by
  rw [Option.filter_eq_some_iff, decide_eq_true_eq]
  rfl

private theorem filter_pos_eq_none_iff {a : Option Float} :
    a.filter (fun x ↦ decide (Scalar.ofNat 0 < x)) = none ↔ ∀ x, a = some x → ¬ 0 < x := by
  rw [Option.filter_eq_none_iff]
  simp only [decide_eq_true_eq]
  rfl

theorem isGreatest_of_largerPositive? {a b : Option Float} {m : Float}
    (h : largerPositive? a b = some m) : IsGreatest {x | PositiveRate a b x} m := by
  unfold largerPositive? at h
  cases ha : a.filter fun x ↦ decide (Scalar.ofNat 0 < x) with
  | none =>
    rw [ha] at h
    obtain ⟨hbm, hm⟩ := filter_pos_eq_some_iff.1 h
    refine ⟨⟨.inr hbm, hm⟩, fun x hx ↦ ?_⟩
    rcases hx with ⟨hax | hbx, hpos⟩
    · exact absurd hpos (filter_pos_eq_none_iff.1 ha x hax)
    · obtain rfl := Option.some.inj (hbx.symm.trans hbm)
      exact le_refl_of_isNumber (zero_lt_iff.1 hm).1
  | some x =>
    obtain ⟨hax, hx⟩ := filter_pos_eq_some_iff.1 ha
    cases hb : b.filter fun x ↦ decide (Scalar.ofNat 0 < x) with
    | none =>
      rw [ha, hb] at h
      obtain rfl := Option.some.inj h
      refine ⟨⟨.inl hax, hx⟩, fun y hy ↦ ?_⟩
      rcases hy with ⟨hay | hby, hpos⟩
      · obtain rfl := Option.some.inj (hay.symm.trans hax)
        exact le_refl_of_isNumber (zero_lt_iff.1 hx).1
      · exact absurd hpos (filter_pos_eq_none_iff.1 hb y hby)
    | some y =>
      obtain ⟨hby, hy⟩ := filter_pos_eq_some_iff.1 hb
      rw [ha, hb] at h
      obtain rfl := Option.some.inj h
      obtain ⟨hone, hxle, hyle⟩ := larger_of_pos hx hy
      constructor
      · rcases hone with hone | hone
        · rw [hone]
          exact ⟨.inl hax, hx⟩
        · rw [hone]
          exact ⟨.inr hby, hy⟩
      · rintro z ⟨haz | hbz, -⟩
        · obtain rfl := Option.some.inj (haz.symm.trans hax)
          exact hxle
        · obtain rfl := Option.some.inj (hbz.symm.trans hby)
          exact hyle

theorem largerPositive?_eq_some_iff {a b : Option Float} {m : Float} :
    largerPositive? a b = some m ↔ IsGreatest {x | PositiveRate a b x} m := by
  refine ⟨isGreatest_of_largerPositive?, fun h ↦ ?_⟩
  cases hfound : largerPositive? a b with
  | none =>
    exfalso
    unfold largerPositive? at hfound
    obtain ⟨⟨hone, hpos⟩, -⟩ := h
    cases ha : a.filter fun x ↦ decide (Scalar.ofNat 0 < x) with
    | some x =>
      rw [ha] at hfound
      cases hb : b.filter fun x ↦ decide (Scalar.ofNat 0 < x) <;> rw [hb] at hfound <;> cases hfound
    | none =>
      rw [ha] at hfound
      rcases hone with ham | hbm
      · exact filter_pos_eq_none_iff.1 ha m ham hpos
      · exact filter_pos_eq_none_iff.1 hfound m hbm hpos
  | some r =>
    -- Positive numbers at one place are equal, so there is one greatest of them.
    have hr := isGreatest_of_largerPositive? hfound
    obtain ⟨hrn, hmn, hrm⟩ := le_iff.1 (h.2 hr.1)
    obtain ⟨-, -, hmr⟩ := le_iff.1 (hr.2 h.1)
    have hpos := (zero_lt_iff.1 hr.1.2).2
    rw [eq_of_place_eq hrn hmn (by omega) (by omega)]

/-! ### The edges of a table -/

variable {c : Catalog Float} {tableId : Int} {width height highest widest m : Float} {damper : Bool}

/-- Sizes and keys are numbers, as columns keep them. -/
structure Numeric (c : Catalog Float) : Prop where
  heights : ∀ row ∈ c.prices.getD [], ∀ x ∈ row.height, IsNumber x
  widths : ∀ row ∈ c.prices.getD [], ∀ x ∈ row.width, IsNumber x
  rowKeys : ∀ rate ∈ c.rowMultipliers.getD [], IsNumber rate.key
  columnKeys : ∀ rate ∈ c.columnMultipliers.getD [], IsNumber rate.key

theorem numeric_iff : c.Numeric ↔
    (∀ row ∈ c.prices.getD [], ∀ x ∈ row.height, IsNumber x) ∧
    (∀ row ∈ c.prices.getD [], ∀ x ∈ row.width, IsNumber x) ∧
    (∀ rate ∈ c.rowMultipliers.getD [], IsNumber rate.key) ∧
    ∀ rate ∈ c.columnMultipliers.getD [], IsNumber rate.key :=
  ⟨fun h ↦ ⟨h.heights, h.widths, h.rowKeys, h.columnKeys⟩, fun h ↦ ⟨h.1, h.2.1, h.2.2.1, h.2.2.2⟩⟩

instance : Decidable c.Numeric := decidable_of_iff _ numeric_iff.symm

private theorem isNumber_of_column {x : Option Float} {y : Float} (h : column x = some y) :
    IsNumber y := by
  obtain ⟨z, -, hz⟩ := Option.bind_eq_some_iff.1 h
  by_cases hself : (z == z) = true
  · rw [if_pos hself] at hz
    obtain rfl := Option.some.inj hz
    split
    · decide +kernel
    · exact (beq_iff.1 hself).1
  · rw [if_neg hself] at hz
    cases hz

private theorem isNumber_of_mem_ratesOf {rates : Option (List (EdgeRate Float))}
    {rate : EdgeRate Float} (h : rate ∈ (rates.map (List.filterMap ratesOf)).getD []) :
    IsNumber rate.key := by
  cases rates with
  | none => cases h
  | some rates =>
    obtain ⟨raw, -, hraw⟩ := List.mem_filterMap.1 h
    obtain ⟨key, hkey, rfl⟩ := Option.map_eq_some_iff.1 hraw
    exact isNumber_of_column hkey

/-- What is read from columns holds numbers only. -/
theorem numeric_stored (c : Catalog Float) : c.stored.Numeric := by
  have hprices : ∀ row ∈ c.stored.prices.getD [], ∃ raw, row = columnsOf raw := by
    intro row hrow
    unfold stored at hrow
    cases hp : c.prices with
    | none =>
      rw [hp] at hrow
      cases hrow
    | some rows =>
      rw [hp] at hrow
      obtain ⟨raw, -, rfl⟩ := List.mem_map.1 hrow
      exact ⟨raw, rfl⟩
  refine ⟨?_, ?_, fun _ ↦ isNumber_of_mem_ratesOf, fun _ ↦ isNumber_of_mem_ratesOf⟩
  · intro row hrow x hx
    obtain ⟨raw, rfl⟩ := hprices row hrow
    exact isNumber_of_column hx
  · intro row hrow x hx
    obtain ⟨raw, rfl⟩ := hprices row hrow
    exact isNumber_of_column hx

def heights (c : Catalog Float) (tableId : Int) : Set Float :=
  {x | ∃ row ∈ c.prices.getD [], row.tableId = tableId ∧ row.height = some x}

def widths (c : Catalog Float) (tableId : Int) : Set Float :=
  {x | ∃ row ∈ c.prices.getD [], row.tableId = tableId ∧ row.width = some x}

/-- The greatest height and the greatest width of a table. A table without heights or without
widths has no edges. -/
structure HasEdges (c : Catalog Float) (tableId : Int) (highest widest : Float) : Prop where
  height : IsGreatest (c.heights tableId) highest
  width : IsGreatest (c.widths tableId) widest

theorem hasEdges_iff_isGreatest : c.HasEdges tableId highest widest ↔
    IsGreatest (c.heights tableId) highest ∧ IsGreatest (c.widths tableId) widest :=
  ⟨fun h ↦ ⟨h.height, h.width⟩, fun h ↦ ⟨h.1, h.2⟩⟩

def BeyondWidth (c : Catalog Float) (tableId : Int) (width : Float) : Prop :=
  ∃ highest widest, c.HasEdges tableId highest widest ∧ widest < width

def BeyondHeight (c : Catalog Float) (tableId : Int) (height : Float) : Prop :=
  ∃ highest widest, c.HasEdges tableId highest widest ∧ highest < height

/-- The rate of a size beyond the edges: beyond the width alone that of the nearest column entry,
beyond the height alone that of the nearest row entry, and beyond both the greatest positive one
among the widest row entry and the highest column entry. -/
inductive RateBeyond (c : Catalog Float) (tableId : Int) (width height : Float) (damper : Bool) :
    Float → Prop
  | wide {m : Float} (hwidth : c.BeyondWidth tableId width)
      (hheight : ¬ c.BeyondHeight tableId height)
      (hrate : NearestRate (c.columnMultipliers.getD []) tableId (· ≤ height) damper m) :
      RateBeyond c tableId width height damper m
  | high {m : Float} (hwidth : ¬ c.BeyondWidth tableId width)
      (hheight : c.BeyondHeight tableId height)
      (hrate : NearestRate (c.rowMultipliers.getD []) tableId (· ≤ width) damper m) :
      RateBeyond c tableId width height damper m
  | corner {m : Float} (hwidth : c.BeyondWidth tableId width)
      (hheight : c.BeyondHeight tableId height)
      (hrate : IsGreatest {x | 0 < x ∧
        (NearestRate (c.rowMultipliers.getD []) tableId (fun _ ↦ True) damper x ∨
          NearestRate (c.columnMultipliers.getD []) tableId (fun _ ↦ True) damper x)} m) :
      RateBeyond c tableId width height damper m

theorem rateBeyond_iff_of_width (hwidth : c.BeyondWidth tableId width)
    (hheight : ¬ c.BeyondHeight tableId height) : c.RateBeyond tableId width height damper m ↔
      NearestRate (c.columnMultipliers.getD []) tableId (· ≤ height) damper m := by
  refine ⟨fun h ↦ ?_, .wide hwidth hheight⟩
  cases h with
  | wide hw hh hrate => exact hrate
  | high hw hh hrate => exact absurd hwidth hw
  | corner hw hh hrate => exact absurd hh hheight

theorem rateBeyond_iff_of_height (hwidth : ¬ c.BeyondWidth tableId width)
    (hheight : c.BeyondHeight tableId height) : c.RateBeyond tableId width height damper m ↔
      NearestRate (c.rowMultipliers.getD []) tableId (· ≤ width) damper m := by
  refine ⟨fun h ↦ ?_, .high hwidth hheight⟩
  cases h with
  | wide hw hh hrate => exact absurd hw hwidth
  | high hw hh hrate => exact hrate
  | corner hw hh hrate => exact absurd hw hwidth

theorem rateBeyond_iff_of_both (hwidth : c.BeyondWidth tableId width)
    (hheight : c.BeyondHeight tableId height) : c.RateBeyond tableId width height damper m ↔
      IsGreatest {x | 0 < x ∧
        (NearestRate (c.rowMultipliers.getD []) tableId (fun _ ↦ True) damper x ∨
          NearestRate (c.columnMultipliers.getD []) tableId (fun _ ↦ True) damper x)} m := by
  refine ⟨fun h ↦ ?_, .corner hwidth hheight⟩
  cases h with
  | wide hw hh hrate => exact absurd hheight hh
  | high hw hh hrate => exact absurd hwidth hw
  | corner hw hh hrate => exact hrate

theorem not_rateBeyond (hwidth : ¬ c.BeyondWidth tableId width)
    (hheight : ¬ c.BeyondHeight tableId height) :
    ¬ c.RateBeyond tableId width height damper m := by
  intro h
  cases h with
  | wide hw hh hrate => exact hwidth hw
  | high hw hh hrate => exact hheight hh
  | corner hw hh hrate => exact hwidth hw

private theorem lt_of_beq_of_lt {x y z : Float} (h : (x == y) = true) (hlt : y < z) : x < z := by
  obtain ⟨hx, -, hplace⟩ := beq_iff.1 h
  obtain ⟨-, hz, hyz⟩ := lt_iff.1 hlt
  exact lt_iff.2 ⟨hx, hz, by omega⟩

private theorem beq_of_isGreatest {s : Set Float} {x y : Float} (hx : IsGreatest s x)
    (hy : IsGreatest s y) : (x == y) = true :=
  beq_of_le_of_le (hy.2 hx.1) (hx.2 hy.1)

theorem beyondWidth_iff (h : c.HasEdges tableId highest widest) :
    c.BeyondWidth tableId width ↔ widest < width := by
  constructor
  · rintro ⟨_, _, h', hlt⟩
    exact lt_of_beq_of_lt (beq_of_isGreatest h.width h'.width) hlt
  · intro hlt
    exact ⟨highest, widest, h, hlt⟩

theorem beyondHeight_iff (h : c.HasEdges tableId highest widest) :
    c.BeyondHeight tableId height ↔ highest < height := by
  constructor
  · rintro ⟨_, _, h', hlt⟩
    exact lt_of_beq_of_lt (beq_of_isGreatest h.height h'.height) hlt
  · intro hlt
    exact ⟨highest, widest, h, hlt⟩

/-- The greatest number of a column of a table. -/
private theorem isGreatest_of_greatest? {rows : List (PriceRow Float)}
    (h : c.rowsOf tableId = .ok rows) (side : PriceRow Float → Option Float)
    (hside : ∀ row ∈ c.prices.getD [], ∀ x ∈ side row, IsNumber x)
    (hm : greatest? (rows.map side) = some m) :
    IsGreatest {x | ∃ row ∈ c.prices.getD [], row.tableId = tableId ∧ side row = some x} m := by
  have hmem : ∀ x, some x ∈ rows.map side ↔
      ∃ row ∈ c.prices.getD [], row.tableId = tableId ∧ side row = some x := by
    intro x
    simp only [List.mem_map, mem_rowsOf h, and_assoc]
  have hnumber : ∀ x, some x ∈ rows.map side → IsNumber x := by
    intro x hx
    obtain ⟨row, hrow, -, hrowx⟩ := (hmem x).1 hx
    exact hside row hrow x hrowx
  have hfound : some m ∈ rows.map side := by
    obtain ⟨y, hy, rfl⟩ := List.mem_filterMap.1 (mem_of_foremost? hm)
    exact hy
  exact ⟨(hmem m).1 hfound, fun x hx ↦ le_of_greatest? hnumber hm ((hmem x).2 hx)⟩

/-- The greatest sides of a table are found wherever there are any. -/
theorem maxDimensions?_cases (hc : c.Numeric) {prices : List (PriceRow Float)}
    (hprices : c.prices = some prices) (tableId : Int) :
    (c.maxDimensions? tableId = .ok none ∧ ∀ highest widest, ¬ c.HasEdges tableId highest widest) ∨
    ∃ highest widest, c.maxDimensions? tableId = .ok (some (highest, widest)) ∧
      c.HasEdges tableId highest widest := by
  have hrows := rowsOf_eq hprices tableId
  generalize (prices.filter fun row ↦ row.tableId = tableId) = rows at hrows
  have hmax : c.maxDimensions? tableId =
      .ok ((greatest? (rows.map PriceRow.height)).bind fun height ↦
        (greatest? (rows.map PriceRow.width)).map fun width ↦ (height, width)) := by
    unfold maxDimensions?
    rw [hrows]
    rfl
  have hsome : ∀ side : PriceRow Float → Option Float,
      (∃ x, x ∈ {x | ∃ row ∈ c.prices.getD [], row.tableId = tableId ∧ side row = some x}) →
        greatest? (rows.map side) ≠ none := by
    rintro side ⟨x, row, hrow, htable, hx⟩ hnone
    have hxmem : some x ∈ rows.map side :=
      List.mem_map.2 ⟨row, (mem_rowsOf hrows).2 ⟨hrow, htable⟩, hx⟩
    obtain ⟨y, hy⟩ := exists_greatest? hxmem
    rw [hnone] at hy
    cases hy
  cases hheight : greatest? (rows.map PriceRow.height) with
  | none =>
    left
    rw [hmax, hheight]
    exact ⟨rfl, fun _ _ hedges ↦ hsome _ ⟨_, hedges.height.1⟩ hheight⟩
  | some highest =>
    cases hwidth : greatest? (rows.map PriceRow.width) with
    | none =>
      left
      rw [hmax, hheight, hwidth]
      exact ⟨rfl, fun _ _ hedges ↦ hsome _ ⟨_, hedges.width.1⟩ hwidth⟩
    | some widest =>
      right
      rw [hmax, hheight, hwidth]
      exact ⟨highest, widest, rfl, isGreatest_of_greatest? hrows _ hc.heights hheight,
        isGreatest_of_greatest? hrows _ hc.widths hwidth⟩

theorem hasEdges_of_maxDimensions? (hc : c.Numeric) {prices : List (PriceRow Float)}
    (hprices : c.prices = some prices)
    (h : c.maxDimensions? tableId = .ok (some (highest, widest))) :
    c.HasEdges tableId highest widest := by
  rcases maxDimensions?_cases hc hprices tableId with ⟨hnone, -⟩ | ⟨_, _, hsome, hedges⟩
  · cases h.symm.trans hnone
  · cases h.symm.trans hsome
    exact hedges

/-! ### The rate beyond the edges -/

/-- No edge of a table has two entries at one key. -/
structure UniqueKeys (c : Catalog Float) : Prop where
  rows : (c.rowMultipliers.getD []).Pairwise fun a b ↦ ¬ a.SameKey b
  columns : (c.columnMultipliers.getD []).Pairwise fun a b ↦ ¬ a.SameKey b

instance : Decidable c.UniqueKeys :=
  decidable_of_iff (_ ∧ _) ⟨fun h ↦ ⟨h.1, h.2⟩, fun h ↦ ⟨h.rows, h.columns⟩⟩

variable {prices : List (PriceRow Float)} {rows columns : List (EdgeRate Float)}

theorem exceededRate?_of_no_edges (h : c.maxDimensions? tableId = .ok none) :
    c.exceededRate? tableId width height damper = .ok none := by
  unfold exceededRate?
  rw [h]
  rfl

theorem exceededRate?_of_edges (hrows : c.rowMultipliers = some rows)
    (hcolumns : c.columnMultipliers = some columns)
    (h : c.maxDimensions? tableId = .ok (some (highest, widest))) :
    c.exceededRate? tableId width height damper =
      .ok (match decide (widest < width), decide (highest < height) with
        | true, true =>
          largerPositive? ((edgeRate? rows tableId fun _ ↦ true).bind (·.pick damper))
            ((edgeRate? columns tableId fun _ ↦ true).bind (·.pick damper))
        | true, false =>
          (edgeRate? columns tableId fun key ↦ decide (key ≤ height)).bind (·.pick damper)
        | false, true =>
          (edgeRate? rows tableId fun key ↦ decide (key ≤ width)).bind (·.pick damper)
        | false, false => none) := by
  unfold exceededRate?
  rw [h, hrows, hcolumns]
  simp only [ok_bind]
  cases decide (widest < width) <;> cases decide (highest < height) <;> rfl

/-- The catalog with other rates beyond the edges of its tables. -/
def withRates (c : Catalog Float) (rates rates' : Option (List (EdgeRate Float))) :
    Catalog Float :=
  { c with rowMultipliers := rates, columnMultipliers := rates' }

/-- Within the edges there is no rate, whatever the entries are and even without them. -/
theorem exceededRate?_withRates_of_within (hc : c.Numeric) (hprices : c.prices = some prices)
    (hwidth : ¬ c.BeyondWidth tableId width) (hheight : ¬ c.BeyondHeight tableId height)
    (rates rates' : Option (List (EdgeRate Float))) :
    (c.withRates rates rates').exceededRate? tableId width height damper = .ok none := by
  have hmax : (c.withRates rates rates').maxDimensions? tableId = c.maxDimensions? tableId := rfl
  rcases maxDimensions?_cases hc hprices tableId with ⟨hnone, -⟩ | ⟨highest, widest, hsome, hedges⟩
  · exact exceededRate?_of_no_edges (hmax.trans hnone)
  · rw [beyondWidth_iff hedges] at hwidth
    rw [beyondHeight_iff hedges] at hheight
    unfold exceededRate?
    rw [hmax, hsome]
    simp only [ok_bind, decide_eq_false hwidth, decide_eq_false hheight]
    rfl

theorem exists_exceededRate? (hc : c.Numeric) (hprices : c.prices = some prices)
    (hrows : c.rowMultipliers = some rows) (hcolumns : c.columnMultipliers = some columns)
    (tableId : Int) (width height : Float) (damper : Bool) :
    ∃ found, c.exceededRate? tableId width height damper = .ok found := by
  rcases maxDimensions?_cases hc hprices tableId with ⟨hmax, -⟩ | ⟨highest, widest, hmax, -⟩
  · exact ⟨_, exceededRate?_of_no_edges hmax⟩
  · exact ⟨_, exceededRate?_of_edges hrows hcolumns hmax⟩

private theorem positiveRate_eq {a b : Option Float} {A B : Float → Prop}
    (ha : ∀ x, a = some x ↔ A x) (hb : ∀ x, b = some x ↔ B x) :
    {x | PositiveRate a b x} = {x | 0 < x ∧ (A x ∨ B x)} := by
  ext x
  show (a = some x ∨ b = some x) ∧ 0 < x ↔ 0 < x ∧ (A x ∨ B x)
  rw [ha, hb, and_comm]

/-- The rate that is found beyond the edges is the one that the entries of the table give. -/
theorem exceededRate?_eq_some_iff (hc : c.Numeric) (hkeys : c.UniqueKeys)
    (hprices : c.prices = some prices) (hrows : c.rowMultipliers = some rows)
    (hcolumns : c.columnMultipliers = some columns) :
    c.exceededRate? tableId width height damper = .ok (some m) ↔
      c.RateBeyond tableId width height damper m := by
  have hrowRate : ∀ {within : Float → Bool} {admits : Float → Prop} {x : Float},
      (∀ key, within key = true ↔ admits key) →
        ((edgeRate? rows tableId within).bind (·.pick damper) = some x ↔
          NearestRate (c.rowMultipliers.getD []) tableId admits damper x) :=
    fun hwithin ↦ edgeRate?_of_table hrows hc.rowKeys hkeys.rows hwithin
  have hcolumnRate : ∀ {within : Float → Bool} {admits : Float → Prop} {x : Float},
      (∀ key, within key = true ↔ admits key) →
        ((edgeRate? columns tableId within).bind (·.pick damper) = some x ↔
          NearestRate (c.columnMultipliers.getD []) tableId admits damper x) :=
    fun hwithin ↦ edgeRate?_of_table hcolumns hc.columnKeys hkeys.columns hwithin
  rcases maxDimensions?_cases hc hprices tableId with
    ⟨hmax, hnone⟩ | ⟨highest, widest, hmax, hedges⟩
  · have hwithin : ¬ c.RateBeyond tableId width height damper m := by
      apply not_rateBeyond
      · rintro ⟨highest, widest, hedges, -⟩
        exact hnone highest widest hedges
      · rintro ⟨highest, widest, hedges, -⟩
        exact hnone highest widest hedges
    rw [exceededRate?_of_no_edges hmax]
    exact iff_of_false (fun h ↦ by cases h) hwithin
  have hwide : c.BeyondWidth tableId width ↔ widest < width := beyondWidth_iff hedges
  have hhigh : c.BeyondHeight tableId height ↔ highest < height := beyondHeight_iff hedges
  rw [exceededRate?_of_edges hrows hcolumns hmax, Except.ok.injEq]
  by_cases hw : widest < width
  · by_cases hh : highest < height
    · simp only [decide_eq_true hw, decide_eq_true hh]
      rw [rateBeyond_iff_of_both (hwide.2 hw) (hhigh.2 hh), largerPositive?_eq_some_iff,
        positiveRate_eq (fun x ↦ hrowRate fun _ ↦ iff_of_true rfl trivial)
          (fun x ↦ hcolumnRate fun _ ↦ iff_of_true rfl trivial)]
    · simp only [decide_eq_true hw, decide_eq_false hh]
      rw [rateBeyond_iff_of_width (hwide.2 hw) (mt hhigh.1 hh),
        hcolumnRate fun _ ↦ decide_eq_true_iff]
  · by_cases hh : highest < height
    · simp only [decide_eq_false hw, decide_eq_true hh]
      rw [rateBeyond_iff_of_height (mt hwide.1 hw) (hhigh.2 hh),
        hrowRate fun _ ↦ decide_eq_true_iff]
    · simp only [decide_eq_false hw, decide_eq_false hh]
      exact iff_of_false (fun h ↦ by cases h) (not_rateBeyond (mt hwide.1 hw) (mt hhigh.1 hh))

/-- No row stands at a size beyond the edges. -/
theorem not_isAt_of_beyond (h : c.BeyondWidth tableId width ∨ c.BeyondHeight tableId height)
    {row : PriceRow Float} (hrow : row ∈ c.prices.getD []) (htable : row.tableId = tableId)
    (hheight : isAt row.height height = true) : ¬ isAt row.width width = true := by
  intro hwidth
  obtain ⟨x, hx, hxw⟩ := isAt_iff.1 hwidth
  obtain ⟨y, hy, hyh⟩ := isAt_iff.1 hheight
  rcases h with ⟨_, widest, hedges, hlt⟩ | ⟨highest, _, hedges, hlt⟩
  · obtain ⟨-, -, hle⟩ := le_iff.1 (hedges.width.2 ⟨row, hrow, htable, hx⟩)
    have hplace := (beq_iff.1 hxw).2.2
    have hbeyond := (lt_iff.1 hlt).2.2
    omega
  · obtain ⟨-, -, hle⟩ := le_iff.1 (hedges.height.2 ⟨row, hrow, htable, hy⟩)
    have hplace := (beq_iff.1 hyh).2.2
    have hbeyond := (lt_iff.1 hlt).2.2
    omega

end Catalog

end Ventilation
