import Mathlib.Data.Set.Finite.Lemmas
import Ventilation.Proofs.Number.Exact
import Ventilation.Proofs.Pricing.Rectangle

/-!
# Larger sizes beyond the edges

Where the rates of a table do not decrease from entry to entry, a larger size beyond its edges has
a rate at least as great, also where the size leaves the second edge and the rate comes from other
entries. Without rounding the price then grows with the size, and twice the size has at least twice
the price.
-/

set_option autoImplicit false
set_option relaxedAutoImplicit false

namespace Ventilation

open Binary64

/-! ### Rates that do not decrease -/

namespace EdgeRate

/-- Every entry of a table has a positive rate, and a greater key has no lesser one. -/
structure Graded (rates : List (EdgeRate Float)) (tableId : Int) : Prop where
  pos : ∀ a ∈ rates, a.tableId = tableId → ∃ m ∈ a.regular, 0 < m
  mono : ∀ a ∈ rates, ∀ b ∈ rates, a.tableId = tableId → b.tableId = tableId → a.key ≤ b.key →
    ∀ m ∈ a.regular, ∀ n ∈ b.regular, m ≤ n

instance (rates : List (EdgeRate Float)) (tableId : Int) : Decidable (Graded rates tableId) :=
  decidable_of_iff (_ ∧ _) ⟨fun h ↦ ⟨h.1, h.2⟩, fun h ↦ ⟨h.pos, h.mono⟩⟩

variable {rates : List (EdgeRate Float)} {tableId : Int} {admits admits' : Float → Prop}
  {damper : Bool} {m n : Float}

theorem Graded.nearestRate_pos (h : Graded rates tableId)
    (hm : NearestRate rates tableId admits false m) : 0 < m := by
  obtain ⟨rate, hrate, hpick⟩ := hm
  obtain ⟨n, hn, hpos⟩ := h.pos rate hrate.mem hrate.tableId_eq
  obtain rfl := Option.some.inj (hn.symm.trans hpick)
  exact hpos

/-- More entries to choose from do not lower the rate of the nearest one. -/
theorem Graded.exists_nearestRate (h : Graded rates tableId)
    (hkeys : ∀ rate ∈ rates, IsNumber rate.key) (hadmits : ∀ key, admits key → admits' key)
    (hm : NearestRate rates tableId admits false m) :
    ∃ m', NearestRate rates tableId admits' false m' ∧ m ≤ m' := by
  classical
  obtain ⟨rate, hrate, hpick⟩ := hm
  have hwithin : ∀ key, decide (admits' key) = true ↔ admits' key := fun _ ↦ decide_eq_true_iff
  have hadmitted := hadmits _ hrate.admitted
  obtain ⟨rate', hrate'⟩ := exists_edgeRate? hwithin hrate.mem hrate.tableId_eq hadmitted
  have hnearest := isNearest_of_edgeRate? hkeys hwithin hrate'
  obtain ⟨m', hm', -⟩ := h.pos rate' hnearest.mem hnearest.tableId_eq
  have hle : rate.key ≤ rate'.key :=
    hnearest.greatest rate hrate.mem hrate.tableId_eq hadmitted
  exact ⟨m', ⟨rate', hnearest, hm'⟩, h.mono rate hrate.mem rate' hnearest.mem hrate.tableId_eq
    hnearest.tableId_eq hle m hpick m' hm'⟩

theorem NearestRate.eq (hunique : rates.Pairwise fun a b ↦ ¬ a.SameKey b)
    (hm : NearestRate rates tableId admits damper m)
    (hn : NearestRate rates tableId admits damper n) : m = n := by
  obtain ⟨rate, hrate, hpick⟩ := hm
  obtain ⟨rate', hrate', hpick'⟩ := hn
  obtain rfl := hrate.eq hunique hrate'
  exact Option.some.inj (hpick.symm.trans hpick')

end EdgeRate

namespace Catalog

open EdgeRate

variable {c : Catalog Float} {tableId : Int} {width height width' height' m : Float}

theorem BeyondWidth.mono (h : c.BeyondWidth tableId width) (hle : width ≤ width') :
    c.BeyondWidth tableId width' := by
  obtain ⟨highest, widest, hedges, hlt⟩ := h
  exact ⟨highest, widest, hedges, Binary64.lt_of_lt_of_le hlt hle⟩

theorem BeyondHeight.mono (h : c.BeyondHeight tableId height) (hle : height ≤ height') :
    c.BeyondHeight tableId height' := by
  obtain ⟨highest, widest, hedges, hlt⟩ := h
  exact ⟨highest, widest, hedges, Binary64.lt_of_lt_of_le hlt hle⟩

/-- Where two rules give at most one rate each, one of the positive rates is the greatest. -/
theorem exists_isGreatest_positive {A B : Float → Prop} (hA : ∀ x y, A x → A y → x = y)
    (hB : ∀ x y, B x → B y → x = y) (hm : A m ∨ B m) (hpos : 0 < m) :
    ∃ m', IsGreatest {x | 0 < x ∧ (A x ∨ B x)} m' ∧ m ≤ m' := by
  -- Floats are compared by their places, so the greatest element is one of greatest place.
  have hfinite : {x | 0 < x ∧ (A x ∨ B x)}.Finite := by
    have hAfinite : {x | A x}.Finite := Set.Subsingleton.finite fun x hx y hy ↦ hA x y hx hy
    have hBfinite : {x | B x}.Finite := Set.Subsingleton.finite fun x hx y hy ↦ hB x y hx hy
    exact (hAfinite.union hBfinite).subset fun x hx ↦ hx.2
  have hmem : m ∈ {x | 0 < x ∧ (A x ∨ B x)} := ⟨hpos, hm⟩
  obtain ⟨m', hm', hgreatest⟩ := Set.exists_max_image _ place hfinite ⟨m, hmem⟩
  have hupper : ∀ x, 0 < x ∧ (A x ∨ B x) → x ≤ m' := fun x hx ↦
    le_iff.2 ⟨(zero_lt_iff.1 hx.1).1, (zero_lt_iff.1 hm'.1).1, hgreatest x hx⟩
  exact ⟨m', ⟨hm', hupper⟩, hupper m hmem⟩

theorem RateBeyond.pos (hrows : Graded (c.rowMultipliers.getD []) tableId)
    (hcolumns : Graded (c.columnMultipliers.getD []) tableId)
    (h : c.RateBeyond tableId width height false m) : 0 < m := by
  cases h with
  | wide hw hh hrate => exact hcolumns.nearestRate_pos hrate
  | high hw hh hrate => exact hrows.nearestRate_pos hrate
  | corner hw hh hrate => exact hrate.1.1

/-- A larger size does not have a lesser rate. Beyond the second edge the rate is the greatest of
two, one of which the smaller size could have had from a higher entry. -/
theorem RateBeyond.mono (hc : c.Numeric) (hkeys : c.UniqueKeys)
    (hrows : Graded (c.rowMultipliers.getD []) tableId)
    (hcolumns : Graded (c.columnMultipliers.getD []) tableId)
    (h : c.RateBeyond tableId width height false m) (hwidth : width ≤ width')
    (hheight : height ≤ height') :
    ∃ m', c.RateBeyond tableId width' height' false m' ∧ m ≤ m' := by
  -- Beyond both edges any rate of the widest or the highest entry has a greatest one above it.
  have hcorner : ∀ x,
      NearestRate (c.rowMultipliers.getD []) tableId (fun _ ↦ True) false x ∨
        NearestRate (c.columnMultipliers.getD []) tableId (fun _ ↦ True) false x →
      0 < x → ∃ m', IsGreatest {x | 0 < x ∧
        (NearestRate (c.rowMultipliers.getD []) tableId (fun _ ↦ True) false x ∨
          NearestRate (c.columnMultipliers.getD []) tableId (fun _ ↦ True) false x)} m' ∧ x ≤ m' :=
    fun x ↦ exists_isGreatest_positive (fun _ _ ↦ NearestRate.eq hkeys.rows)
      fun _ _ ↦ NearestRate.eq hkeys.columns
  cases h with
  | wide hw hh hrate =>
    have hw' := hw.mono hwidth
    by_cases hh' : c.BeyondHeight tableId height'
    · obtain ⟨x, hx, hmx⟩ := hcolumns.exists_nearestRate hc.columnKeys (fun _ _ ↦ trivial) hrate
      obtain ⟨m', hm', hxm⟩ := hcorner x (.inr hx) (hcolumns.nearestRate_pos hx)
      exact ⟨m', .corner hw' hh' hm', Binary64.le_trans hmx hxm⟩
    · obtain ⟨m', hm', hle⟩ := hcolumns.exists_nearestRate hc.columnKeys
        (fun _ hkey ↦ Binary64.le_trans hkey hheight) hrate
      exact ⟨m', .wide hw' hh' hm', hle⟩
  | high hw hh hrate =>
    have hh' := hh.mono hheight
    by_cases hw' : c.BeyondWidth tableId width'
    · obtain ⟨x, hx, hmx⟩ := hrows.exists_nearestRate hc.rowKeys (fun _ _ ↦ trivial) hrate
      obtain ⟨m', hm', hxm⟩ := hcorner x (.inl hx) (hrows.nearestRate_pos hx)
      exact ⟨m', .corner hw' hh' hm', Binary64.le_trans hmx hxm⟩
    · obtain ⟨m', hm', hle⟩ := hrows.exists_nearestRate hc.rowKeys
        (fun _ hkey ↦ Binary64.le_trans hkey hwidth) hrate
      exact ⟨m', .high hw' hh' hm', hle⟩
  | corner hw hh hrate =>
    exact ⟨m, .corner (hw.mono hwidth) (hh.mono hheight) hrate,
      le_refl_of_isNumber (zero_lt_iff.1 hrate.1.1).1⟩

/-! ### Prices without rounding -/

/-- The area of a size at a rate, with the products taken exactly. -/
def exactPrice? (d : Dimensions Float) (rate : Float) : Option ℚ :=
  (value? d.height).bind fun height ↦ (value? d.width).bind fun width ↦
    (value? rate).map fun rate ↦ height * width * rate

/-- Twice a size in both dimensions. -/
def IsTwice (d d' : Dimensions Float) : Prop :=
  ∃ width height, value? d.width = some width ∧ value? d'.width = some (2 * width) ∧
    value? d.height = some height ∧ value? d'.height = some (2 * height)

theorem exactPrice?_eq_some_iff {d : Dimensions Float} {p : ℚ} :
    exactPrice? d m = some p ↔ ∃ height width rate, value? d.height = some height ∧
      value? d.width = some width ∧ value? m = some rate ∧ p = height * width * rate := by
  unfold exactPrice?
  simp only [Option.bind_eq_some_iff, Option.map_eq_some_iff]
  constructor
  · rintro ⟨height, hheight, width, hwidth, rate, hrate, rfl⟩
    exact ⟨height, width, rate, hheight, hwidth, hrate, rfl⟩
  · rintro ⟨height, width, rate, hheight, hwidth, hrate, rfl⟩
    exact ⟨height, hheight, width, hwidth, rate, hrate, rfl⟩

variable {d d' : Dimensions Float} {m' : Float} {p p' : ℚ}

private theorem value_le {x y : Float} {a b : ℚ} (hx : value? x = some a) (hy : value? y = some b)
    (h : x ≤ y) : a ≤ b :=
  (value?_le_iff hx hy).2 (le_iff.1 h).2.2

theorem exactPrice?_mono (hwidth : 0 < d.width) (hheight : 0 < d.height) (hm : 0 < m)
    (hw : d.width ≤ d'.width) (hh : d.height ≤ d'.height) (hmm : m ≤ m')
    (hp : exactPrice? d m = some p) (hp' : exactPrice? d' m' = some p') : p ≤ p' := by
  obtain ⟨y, x, q, hy, hx, hq, rfl⟩ := exactPrice?_eq_some_iff.1 hp
  obtain ⟨y', x', q', hy', hx', hq', rfl⟩ := exactPrice?_eq_some_iff.1 hp'
  have hxpos := value?_pos hx hwidth
  have hypos := value?_pos hy hheight
  have hqpos := value?_pos hq hm
  have hxle := value_le hx hx' hw
  have hyle := value_le hy hy' hh
  have hqle := value_le hq hq' hmm
  have hxpos' := hxpos.trans_le hxle
  have hypos' := hypos.trans_le hyle
  calc y * x * q ≤ y' * x' * q := by gcongr
    _ ≤ y' * x' * q' := by gcongr

theorem two_mul_exactPrice?_le (hwidth : 0 < d.width) (hheight : 0 < d.height) (hm : 0 < m)
    (htwice : IsTwice d d') (hmm : m ≤ m')
    (hp : exactPrice? d m = some p) (hp' : exactPrice? d' m' = some p') : 2 * p ≤ p' := by
  obtain ⟨y, x, q, hy, hx, hq, rfl⟩ := exactPrice?_eq_some_iff.1 hp
  obtain ⟨y', x', q', hy', hx', hq', rfl⟩ := exactPrice?_eq_some_iff.1 hp'
  obtain ⟨_, _, hxd, hxd', hyd, hyd'⟩ := htwice
  obtain rfl := Option.some.inj (hx.symm.trans hxd)
  obtain rfl := Option.some.inj (hy.symm.trans hyd)
  obtain rfl := Option.some.inj (hx'.symm.trans hxd')
  obtain rfl := Option.some.inj (hy'.symm.trans hyd')
  have hxpos := value?_pos hx hwidth
  have hypos := value?_pos hy hheight
  have hqpos := value?_pos hq hm
  have hqle := value_le hq hq' hmm
  have harea : 0 < y * x := mul_pos hypos hxpos
  calc 2 * (y * x * q) ≤ 4 * (y * x * q) := by nlinarith [mul_pos harea hqpos]
    _ ≤ 4 * (y * x * q') := by gcongr
    _ = 2 * y * (2 * x) * q' := by ring

variable {prices : List (PriceRow Float)} {rows columns : List (EdgeRate Float)}

theorem exists_rateBeyond_of_rectangularPrice? (hc : c.Numeric) (hkeys : c.UniqueKeys)
    (hprices : c.prices = some prices) (hrows : c.rowMultipliers = some rows)
    (hcolumns : c.columnMultipliers = some columns) (hbeyond : ¬ c.Within tableId d)
    {price : TablePrice Float} (h : c.rectangularPrice? tableId d = .ok (some price)) :
    ∃ m, c.RateBeyond tableId d.width d.height false m := by
  by_contra hno
  rw [rectangularPrice?_of_no_rate hc hkeys hprices hrows hcolumns hbeyond
    fun m hm ↦ hno ⟨m, hm⟩] at h
  cases h

/-- The regular price beyond an edge is the area at the regular rate, whatever dampers cost. -/
theorem exists_rectangularPrice?_of_rateBeyond (hc : c.Numeric) (hkeys : c.UniqueKeys)
    (hprices : c.prices = some prices) (hrows : c.rowMultipliers = some rows)
    (hcolumns : c.columnMultipliers = some columns)
    (hm : c.RateBeyond tableId d.width d.height false m) :
    ∃ price, c.rectangularPrice? tableId d = .ok (some price) ∧
      price.tb = some (d.height * d.width * m) := by
  obtain ⟨hdamper, hregular⟩ := rectangularPrice?_of_rateBeyond hc hkeys hprices hrows hcolumns hm
  by_cases hm' : ∃ m', c.RateBeyond tableId d.width d.height true m'
  · obtain ⟨m', hm'⟩ := hm'
    exact ⟨_, hdamper m' hm', rfl⟩
  · exact ⟨_, hregular fun m' h ↦ hm' ⟨m', h⟩, rfl⟩

/-- Prices beyond the edges grow with the size. If a size has one, so does every size that is at
least as wide and as high. Each is the area at a rate, the rate of the larger size is not less, and
with products taken exactly neither is its price. Twice the size has at least twice the price. -/
theorem rectangularPrice_le_of_larger (c : Catalog Float) (hc : c.Numeric) (hkeys : c.UniqueKeys)
    (hprices : c.prices = some prices) (hrows : c.rowMultipliers = some rows)
    (hcolumns : c.columnMultipliers = some columns) (tableId : Int)
    (hrowRates : Graded rows tableId) (hcolumnRates : Graded columns tableId)
    (d d' : Dimensions Float) (hwidth : 0 < d.width) (hheight : 0 < d.height)
    (hwidths : d.width ≤ d'.width) (hheights : d.height ≤ d'.height)
    (hbeyond : c.BeyondWidth tableId d.width ∨ c.BeyondHeight tableId d.height)
    (price : TablePrice Float) (h : c.rectangularPrice? tableId d = .ok (some price)) :
    ∃ m m' price', c.RateBeyond tableId d.width d.height false m ∧
      c.RateBeyond tableId d'.width d'.height false m' ∧
      c.rectangularPrice? tableId d' = .ok (some price') ∧
      price.tb = some (d.height * d.width * m) ∧ price'.tb = some (d'.height * d'.width * m') ∧
      m ≤ m' ∧ ∀ p p', exactPrice? d m = some p → exactPrice? d' m' = some p' →
        p ≤ p' ∧ (IsTwice d d' → 2 * p ≤ p') := by
  have hrowsGraded : Graded (c.rowMultipliers.getD []) tableId := by
    rw [hrows]
    exact hrowRates
  have hcolumnsGraded : Graded (c.columnMultipliers.getD []) tableId := by
    rw [hcolumns]
    exact hcolumnRates
  obtain ⟨m, hm⟩ := exists_rateBeyond_of_rectangularPrice? hc hkeys hprices hrows hcolumns
    (not_within_iff.2 hbeyond) h
  obtain ⟨m', hm', hmm⟩ := hm.mono hc hkeys hrowsGraded hcolumnsGraded hwidths hheights
  obtain ⟨found, hfound, htb⟩ :=
    exists_rectangularPrice?_of_rateBeyond hc hkeys hprices hrows hcolumns hm
  obtain ⟨price', hprice', htb'⟩ :=
    exists_rectangularPrice?_of_rateBeyond hc hkeys hprices hrows hcolumns hm'
  obtain rfl : found = price := Option.some.inj (Except.ok.inj (hfound.symm.trans h))
  have hpos := hm.pos hrowsGraded hcolumnsGraded
  refine ⟨m, m', price', hm, hm', hprice', htb, htb', hmm, fun p p' hp hp' ↦ ⟨?_, fun htwice ↦ ?_⟩⟩
  · exact exactPrice?_mono hwidth hheight hpos hwidths hheights hmm hp hp'
  · exact two_mul_exactPrice?_le hwidth hheight hpos htwice hmm hp hp'

/-- A table of one square of ten inches. Its column entries are cheaper than its row entry. -/
def graded : Catalog Float where
  products := some []
  prices := some [⟨1, 1, some 10, some 10, some 100, none, none⟩]
  rowMultipliers := some [⟨1, 10, some 3, none⟩]
  columnMultipliers := some [⟨1, 5, some 1, none⟩, ⟨1, 10, some 2, none⟩]

/-- A size of 12 by 8 leaves the table by its width and has the rate of the lower column entry;
twice the size leaves it by both sides and has the rate of the row entry. -/
theorem rectangularPrice_le_of_larger_graded :
    ∃ m m' price price', graded.RateBeyond 1 12 8 false m ∧ graded.RateBeyond 1 24 16 false m' ∧
      graded.rectangularPrice? 1 ⟨12, 8⟩ = .ok (some price) ∧
      graded.rectangularPrice? 1 ⟨24, 16⟩ = .ok (some price') ∧
      price.tb = some (8 * 12 * m) ∧ price'.tb = some (16 * 24 * m') ∧ m = 1 ∧ m' = 3 ∧
      ∀ p p', exactPrice? ⟨12, 8⟩ m = some p → exactPrice? ⟨24, 16⟩ m' = some p' → 2 * p ≤ p' := by
  have hc : graded.Numeric := by decide +kernel
  have hkeys : graded.UniqueKeys := by decide +kernel
  have hedges : graded.HasEdges 1 10 10 :=
    hasEdges_of_maxDimensions? hc rfl (eq_ok_of_toOption (by decide +kernel))
  have hbeyond : graded.BeyondWidth 1 12 := (beyondWidth_iff hedges).2 (by decide +kernel)
  have hiff : ∀ width height m, graded.exceededRate? 1 width height false = .ok (some m) ↔
      graded.RateBeyond 1 width height false m :=
    fun _ _ _ ↦ exceededRate?_eq_some_iff hc hkeys rfl rfl rfl
  have htwice : IsTwice ⟨12, 8⟩ ⟨24, 16⟩ := by
    have h12 : parts 12 = .finite false (3 * 2 ^ 51) (-49) := by decide +kernel
    have h24 : parts 24 = .finite false (3 * 2 ^ 51) (-48) := by decide +kernel
    have h8 : parts 8 = .finite false (2 ^ 52) (-49) := by decide +kernel
    have h16 : parts 16 = .finite false (2 ^ 52) (-48) := by decide +kernel
    refine ⟨12, 8, ?_, ?_, ?_, ?_⟩ <;> unfold value?
    · rw [h12]
      norm_num [Parts.value?]
    · rw [h24]
      norm_num [Parts.value?]
    · rw [h8]
      norm_num [Parts.value?]
    · rw [h16]
      norm_num [Parts.value?]
  have hfound : ∃ price, graded.rectangularPrice? 1 ⟨12, 8⟩ = .ok (some price) :=
    ⟨⟨some (8 * 12 * 1), some (8 * 12 * 1)⟩, eq_ok_of_toOption (by decide +kernel)⟩
  obtain ⟨price, hprice⟩ := hfound
  obtain ⟨m, m', price', hm, hm', hprice', htb, htb', -, hexact⟩ :=
    rectangularPrice_le_of_larger graded hc hkeys rfl rfl rfl 1 (by decide +kernel)
      (by decide +kernel) ⟨12, 8⟩ ⟨24, 16⟩ (by decide +kernel) (by decide +kernel)
      (by decide +kernel) (by decide +kernel) (.inl hbeyond) price hprice
  have hlower : graded.exceededRate? 1 12 8 false = .ok (some 1) :=
    eq_ok_of_toOption (by decide +kernel)
  have hgreater : graded.exceededRate? 1 24 16 false = .ok (some 3) :=
    eq_ok_of_toOption (by decide +kernel)
  have hm1 : m = 1 := Option.some.inj (Except.ok.inj (((hiff 12 8 m).2 hm).symm.trans hlower))
  have hm3 : m' = 3 := Option.some.inj (Except.ok.inj (((hiff 24 16 m').2 hm').symm.trans hgreater))
  exact ⟨m, m', price, price', hm, hm', hprice, hprice', htb, htb', hm1, hm3,
    fun p p' hp hp' ↦ (hexact p p' hp hp').2 htwice⟩

end Catalog

end Ventilation
