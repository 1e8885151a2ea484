import Ventilation.Pricing.HandGear
import Ventilation.Proofs.Number.Nonneg
import Ventilation.Proofs.Number.Whole
import Ventilation.Proofs.Pricing.Refusal

/-!
# Panels and gear cells

A family of dampers builds an item from the fewest panels that keep to its limits, in equal shares
of each side cut to whole inches, and charges the fewest gear cells that cover it. This is so where
quotients are exact: over the rationals, `HandGearFamily.exact`, and for the computed numbers
wherever no quotient is rounded, `HandGearFamily.QuotientsExact`. Whether an item is oversized is
decided without a quotient and is exact in any case.
-/

set_option autoImplicit false
set_option relaxedAutoImplicit false

namespace Ventilation

/-! ### The rules over the rationals -/

namespace Scalar

theorem larger_eq_max (a b : ℚ) : larger a b = max a b := by
  unfold larger
  rw [beq_self_eq_true, if_pos rfl, max_def_lt]

theorem smaller_eq_min (a b : ℚ) : smaller a b = min a b := by
  unfold smaller
  rw [beq_self_eq_true, if_pos rfl, min_comm, min_def_lt]

end Scalar

/-! ### Pieces that cover a side -/

/-- The least whole number of pieces, from `least` on, that cover a side. -/
def LeastCover (least : ℤ) (piece side : ℚ) (n : ℤ) : Prop :=
  IsLeast {k : ℤ | least ≤ k ∧ side ≤ k * piece} n

theorem leastCover_max_ceil (least : ℤ) {piece : ℚ} (hpiece : 0 < piece) (side : ℚ) :
    LeastCover least piece side (max ⌈side / piece⌉ least) := by
  refine ⟨⟨le_max_right _ _, ?_⟩, fun k ⟨hleast, hk⟩ ↦ max_le ?_ hleast⟩
  · rw [← div_le_iff₀ hpiece]
    exact (Int.le_ceil _).trans (by exact_mod_cast le_max_left _ _)
  · rwa [Int.ceil_le, div_le_iff₀ hpiece]

namespace LeastCover

variable {least n n' : ℤ} {piece side side' : ℚ}

theorem least_le (h : LeastCover least piece side n) : least ≤ n := h.1.1

theorem le_mul (h : LeastCover least piece side n) : side ≤ n * piece := h.1.2

theorem mono (h : LeastCover least piece side n) (h' : LeastCover least piece side' n')
    (hside : side ≤ side') : n ≤ n' :=
  h.2 ⟨h'.least_le, hside.trans h'.le_mul⟩

/-- One piece is not enough exactly for a longer side. -/
theorem one_lt_iff (h : LeastCover 1 piece side n) : 1 < n ↔ piece < side := by
  rw [← not_le, ← not_le, not_iff_not]
  constructor
  · intro hn
    have hone : n = 1 := le_antisymm hn h.least_le
    simpa [hone] using h.le_mul
  · exact fun hside ↦ h.2 ⟨le_rfl, by simpa using hside⟩

end LeastCover

theorem one_lt_mul_iff_of_one_le {r c : ℤ} (hr : 1 ≤ r) (hc : 1 ≤ c) :
    1 < r * c ↔ 1 < r ∨ 1 < c := by
  constructor
  · intro h
    by_contra hnone
    push Not at hnone
    rw [le_antisymm hnone.1 hr, le_antisymm hnone.2 hc] at h
    exact absurd h (by decide)
  · rintro (h | h)
    · exact h.trans_le (le_mul_of_one_le_right (by omega) hc)
    · exact h.trans_le (le_mul_of_one_le_left (by omega) hr)

/-- The whole inches of each of `count` equal shares of a side, none beyond the limit. -/
structure IsShare (count : ℤ) (limit side : ℚ) (inches : ℤ) : Prop where
  le_limit : inches ≤ limit
  mul_le : count * inches ≤ side
  lt_mul : side < count * (inches + 1)

theorem isShare_floor {count : ℤ} {limit side : ℚ} (h : LeastCover 1 limit side count) :
    IsShare count limit side ⌊side / count⌋ := by
  have hcount : (0 : ℚ) < count := by exact_mod_cast h.least_le
  refine ⟨(Int.floor_le _).trans ?_, ?_, ?_⟩
  · rw [div_le_iff₀' hcount]
    exact h.le_mul
  · rw [← le_div_iff₀' hcount]
    exact Int.floor_le _
  · rw [← div_lt_iff₀' hcount]
    exact Int.lt_floor_add_one _

/-! ### Families over the rationals -/

namespace HandGearFamily

/-- Positive limits and cells, and a price that is not negative. -/
structure IsUsable (g : HandGearFamily ℚ) : Prop where
  maxHeight_pos : 0 < g.maxHeight
  maxWidth_pos : 0 < g.maxWidth
  cellMm_pos : 0 < g.cellMm
  unitPrice_nonneg : 0 ≤ g.unitPrice

section Rational

variable {g : HandGearFamily ℚ} {s s' : Dimensions ℚ} {r c m n m' n' : ℤ}

/-- How many panels an item has along its height and along its width. -/
structure IsLayout (g : HandGearFamily ℚ) (s : Dimensions ℚ) (r c : ℤ) : Prop where
  rows : LeastCover 1 g.maxHeight s.height r
  columns : LeastCover 1 g.maxWidth s.width c

theorem IsUsable.exists_layout (hg : g.IsUsable) (s : Dimensions ℚ) :
    ∃ r c : ℤ, g.IsLayout s r c ∧ g.panels s = (↑r, ↑c) := by
  refine ⟨_, _, ⟨leastCover_max_ceil 1 hg.maxHeight_pos s.height,
    leastCover_max_ceil 1 hg.maxWidth_pos s.width⟩, ?_⟩
  unfold panels
  rw [Scalar.larger_eq_max, Scalar.larger_eq_max, Scalar.ceil_eq, Scalar.ceil_eq, Int.cast_max,
    Int.cast_max]
  rfl

theorem IsLayout.isOversized_iff (h : g.IsLayout s r c) :
    g.isOversized s = true ↔ 1 < r * c := by
  unfold isOversized
  rw [one_lt_mul_iff_of_one_le h.rows.least_le h.columns.least_le, h.rows.one_lt_iff,
    h.columns.one_lt_iff, Bool.or_eq_true, decide_eq_true_iff, decide_eq_true_iff]

theorem IsLayout.panelSize_eq (h : g.IsLayout s r c) (hpanels : g.panels s = (↑r, ↑c))
    (hheight : 0 ≤ s.height) (hwidth : 0 ≤ s.width) :
    g.panelSize s = ⟨(⌊s.width / c⌋ : ℚ), (⌊s.height / r⌋ : ℚ)⟩ := by
  have hr : (0 : ℚ) ≤ r := by exact_mod_cast zero_le_one.trans h.rows.least_le
  have hc : (0 : ℚ) ≤ c := by exact_mod_cast zero_le_one.trans h.columns.least_le
  unfold panelSize
  rw [hpanels, Scalar.trunc_of_nonneg (div_nonneg hheight hr),
    Scalar.trunc_of_nonneg (div_nonneg hwidth hc), Scalar.smaller_eq_min, Scalar.smaller_eq_min,
    min_eq_left (isShare_floor h.rows).le_limit, min_eq_left (isShare_floor h.columns).le_limit]

/-- How many gear cells stand along the height of an item and along its width. -/
structure IsGearing (g : HandGearFamily ℚ) (s : Dimensions ℚ) (m n : ℤ) : Prop where
  rows : LeastCover 0 g.cellMm (25 * s.height) m
  columns : LeastCover 0 g.cellMm (25 * s.width) n

theorem cells_eq (g : HandGearFamily ℚ) (inches : ℚ) :
    g.cells inches = (⌈25 * inches / g.cellMm⌉ : ℚ) := by
  unfold cells
  rw [Scalar.ceil_eq, mul_comm 25 inches]
  rfl

theorem IsUsable.leastCover_ceil (hg : g.IsUsable) {inches : ℚ} (h : 0 ≤ inches) :
    LeastCover 0 g.cellMm (25 * inches) ⌈25 * inches / g.cellMm⌉ := by
  have hnonneg : 0 ≤ 25 * inches / g.cellMm := div_nonneg (by positivity) hg.cellMm_pos.le
  have hcover := leastCover_max_ceil 0 hg.cellMm_pos (25 * inches)
  rwa [max_eq_left (Int.ceil_nonneg hnonneg)] at hcover

theorem IsUsable.exists_gearing (hg : g.IsUsable) (hheight : 0 ≤ s.height) (hwidth : 0 ≤ s.width) :
    ∃ m n : ℤ, g.IsGearing s m n ∧ g.cells s.height = m ∧ g.cells s.width = n :=
  ⟨_, _, ⟨hg.leastCover_ceil hheight, hg.leastCover_ceil hwidth⟩, cells_eq g _, cells_eq g _⟩

theorem surcharge_eq (hm : g.cells s.height = m) (hn : g.cells s.width = n) :
    g.surcharge s = g.unitPrice * (m * n) := by
  unfold surcharge
  rw [hm, hn, mul_comm]

theorem IsGearing.mul_le_mul (h : g.IsGearing s m n) (h' : g.IsGearing s' m' n')
    (hheight : s.height ≤ s'.height) (hwidth : s.width ≤ s'.width) : m * n ≤ m' * n' :=
  Int.mul_le_mul (h.rows.mono h'.rows (by linarith)) (h.columns.mono h'.columns (by linarith))
    h.columns.least_le h'.rows.least_le

end Rational

end HandGearFamily

/-! ### Computed numbers -/

open Binary64

/-- The sides as rationals. -/
def Dimensions.exact (d : Dimensions Float) : Dimensions ℚ := ⟨rational d.width, rational d.height⟩

/-- Both sides are finite and not negative. -/
structure Dimensions.IsFiniteNonneg (d : Dimensions Float) : Prop where
  isFinite_width : d.width.isFinite = true
  isFinite_height : d.height.isFinite = true
  width_nonneg : 0 ≤ d.width
  height_nonneg : 0 ≤ d.height

namespace Dimensions.IsFiniteNonneg

variable {d : Dimensions Float}

theorem exact_width_nonneg (h : d.IsFiniteNonneg) : 0 ≤ d.exact.width :=
  rational_nonneg h.isFinite_width h.width_nonneg

theorem exact_height_nonneg (h : d.IsFiniteNonneg) : 0 ≤ d.exact.height :=
  rational_nonneg h.isFinite_height h.height_nonneg

end Dimensions.IsFiniteNonneg

namespace Binary64

variable {x y : Float} {p q : ℚ}

theorem value?_larger (hx : value? x = some p) (hy : value? y = some q) :
    value? (Scalar.larger x y) = some (max p q) := by
  unfold Scalar.larger
  rw [if_pos (beq_self_of_value? hx), max_def_lt]
  by_cases h : x < y
  · rw [if_pos h, if_pos ((lt_iff_of_value? hx hy).1 h), hy]
  · rw [if_neg h, if_neg (mt (lt_iff_of_value? hx hy).2 h), hx]

theorem value?_smaller (hx : value? x = some p) (hy : value? y = some q) :
    value? (Scalar.smaller x y) = some (min p q) := by
  unfold Scalar.smaller
  rw [if_pos (beq_self_of_value? hx), min_comm, min_def_lt]
  by_cases h : y < x
  · rw [if_pos h, if_pos ((lt_iff_of_value? hy hx).1 h), hy]
  · rw [if_neg h, if_neg (mt (lt_iff_of_value? hy hx).2 h), hx]

theorem value?_larger_ceil_one (hx : value? x = some q) :
    value? (Scalar.larger (Scalar.ceil x) (Scalar.ofNat 1)) =
      some (Scalar.larger (Scalar.ceil q) (Scalar.ofNat 1)) := by
  have hone : value? (Scalar.ofNat 1) = some ((1 : ℕ) : ℚ) := value?_nearest (by decide)
  rw [Scalar.larger_eq_max, Scalar.ceil_eq]
  exact value?_larger (value?_ceil hx) hone

theorem value?_smaller_trunc {limit : Float} (hx : value? x = some q) (hq : 0 ≤ q)
    (hlimit : limit.isFinite = true) :
    value? (Scalar.smaller (Scalar.trunc x) limit) =
      some (Scalar.smaller (Scalar.trunc q) (rational limit)) := by
  rw [Scalar.smaller_eq_min, Scalar.trunc_of_nonneg hq]
  exact value?_smaller (value?_trunc_of_nonneg hx hq) (value?_of_isFinite hlimit)

end Binary64

namespace HandGearFamily

variable {f : HandGearFamily Float} {d d' : Dimensions Float}

/-- The family with its figures as rationals. -/
def exact (f : HandGearFamily Float) : HandGearFamily ℚ where
  models := f.models
  unitPrice := rational f.unitPrice
  maxHeight := rational f.maxHeight
  maxWidth := rational f.maxWidth
  cellMm := rational f.cellMm

theorem figures_of_validate (h : f.validate = .ok ()) :
    (f.maxHeight.isFinite = true ∧ 0 < f.maxHeight) ∧
      (f.maxWidth.isFinite = true ∧ 0 < f.maxWidth) ∧
      (f.cellMm.isFinite = true ∧ 0 < f.cellMm) ∧
      f.unitPrice.isFinite = true ∧ 0 ≤ f.unitPrice := by
  obtain ⟨_, hheight, h⟩ := bind_eq_ok_iff.1 h
  obtain ⟨_, hwidth, h⟩ := bind_eq_ok_iff.1 h
  obtain ⟨_, hcell, hprice⟩ := bind_eq_ok_iff.1 h
  exact ⟨checkPositive_eq_ok_iff.1 hheight, checkPositive_eq_ok_iff.1 hwidth,
    checkPositive_eq_ok_iff.1 hcell, checkNonNegative_eq_ok_iff.1 hprice⟩

theorem isUsable_exact (h : f.validate = .ok ()) : f.exact.IsUsable := by
  obtain ⟨⟨hheight, hheightPos⟩, ⟨hwidth, hwidthPos⟩, ⟨hcell, hcellPos⟩, hprice, hpriceNonneg⟩ :=
    figures_of_validate h
  exact ⟨value?_pos (value?_of_isFinite hheight) hheightPos,
    value?_pos (value?_of_isFinite hwidth) hwidthPos,
    value?_pos (value?_of_isFinite hcell) hcellPos, rational_nonneg hprice hpriceNonneg⟩

/-- Comparisons are exact, so that it makes no difference whether numbers are rounded. -/
theorem isOversized_exact (h : f.validate = .ok ()) (hd : d.IsFiniteNonneg) :
    f.exact.isOversized d.exact = f.isOversized d := by
  obtain ⟨⟨hheight, -⟩, ⟨hwidth, -⟩, -⟩ := figures_of_validate h
  unfold isOversized
  congr 1
  · exact decide_eq_decide.2 (lt_iff_rational hheight hd.isFinite_height).symm
  · exact decide_eq_decide.2 (lt_iff_rational hwidth hd.isFinite_width).symm

/-- No quotient that is taken for an item is rounded. -/
structure QuotientsExact (f : HandGearFamily Float) (d : Dimensions Float) : Prop where
  rows : value? (d.height / f.maxHeight) = some (d.exact.height / f.exact.maxHeight)
  columns : value? (d.width / f.maxWidth) = some (d.exact.width / f.exact.maxWidth)
  panelHeight : value? (d.height / (f.panels d).1) =
    some (d.exact.height / (f.exact.panels d.exact).1)
  panelWidth : value? (d.width / (f.panels d).2) =
    some (d.exact.width / (f.exact.panels d.exact).2)
  heightCells : value? (d.height * Scalar.ofNat 25 / f.cellMm) =
    some (25 * d.exact.height / f.exact.cellMm)
  widthCells : value? (d.width * Scalar.ofNat 25 / f.cellMm) =
    some (25 * d.exact.width / f.exact.cellMm)

/-- The numbers that are computed for an item are the exact ones. -/
structure IsExact (f : HandGearFamily Float) (d : Dimensions Float) : Prop where
  rows : value? (f.panels d).1 = some (f.exact.panels d.exact).1
  columns : value? (f.panels d).2 = some (f.exact.panels d.exact).2
  panelHeight : value? (f.panelSize d).height = some (f.exact.panelSize d.exact).height
  panelWidth : value? (f.panelSize d).width = some (f.exact.panelSize d.exact).width
  heightCells : value? (f.cells d.height) = some (f.exact.cells d.exact.height)
  widthCells : value? (f.cells d.width) = some (f.exact.cells d.exact.width)

theorem value?_cells {x : Float} {q : ℚ}
    (h : value? (x * Scalar.ofNat 25 / f.cellMm) = some (25 * q / f.exact.cellMm)) :
    value? (f.cells x) = some (f.exact.cells q) := by
  rw [cells_eq]
  exact value?_ceil h

/-- Rounding to whole numbers and choosing the larger or the smaller one are exact. -/
theorem QuotientsExact.isExact (h : f.QuotientsExact d) (hvalid : f.validate = .ok ())
    (hd : d.IsFiniteNonneg) : f.IsExact d := by
  obtain ⟨⟨hheight, -⟩, ⟨hwidth, -⟩, -⟩ := figures_of_validate hvalid
  have hf := isUsable_exact hvalid
  obtain ⟨r, c, hlayout, hpanels⟩ := hf.exists_layout d.exact
  have hr : (0 : ℚ) ≤ (f.exact.panels d.exact).1 := by
    rw [hpanels]
    exact Int.cast_nonneg (zero_le_one.trans hlayout.rows.least_le)
  have hc : (0 : ℚ) ≤ (f.exact.panels d.exact).2 := by
    rw [hpanels]
    exact Int.cast_nonneg (zero_le_one.trans hlayout.columns.least_le)
  exact ⟨value?_larger_ceil_one h.rows, value?_larger_ceil_one h.columns,
    value?_smaller_trunc h.panelHeight (div_nonneg hd.exact_height_nonneg hr) hheight,
    value?_smaller_trunc h.panelWidth (div_nonneg hd.exact_width_nonneg hc) hwidth,
    value?_cells h.heightCells, value?_cells h.widthCells⟩

/-- An item is built from the least number of rows and columns of panels that its family allows, and
is oversized exactly if there is more than one panel. The panels are equal shares of the item, cut
to whole inches. The surcharge is the unit price for each of the least number of cells that cover
the item in millimetres. It is not negative and does not decrease with either side. All this holds
with exact quotients, and of the computed numbers where no quotient is rounded. -/
theorem layout_of_validate (f : HandGearFamily Float) (hvalid : f.validate = .ok ())
    (d : Dimensions Float) (hd : d.IsFiniteNonneg) :
    ∃ r c p q m n : ℤ,
      (f.exact.panels d.exact = (↑r, ↑c) ∧ LeastCover 1 f.exact.maxHeight d.exact.height r ∧
        LeastCover 1 f.exact.maxWidth d.exact.width c) ∧
      ((f.isOversized d = true ↔ 1 < r * c) ∧ (f.exact.isOversized d.exact = true ↔ 1 < r * c)) ∧
      (f.exact.panelSize d.exact = ⟨↑q, ↑p⟩ ∧
        IsShare r f.exact.maxHeight d.exact.height p ∧
        IsShare c f.exact.maxWidth d.exact.width q) ∧
      (f.exact.surcharge d.exact = f.exact.unitPrice * (m * n) ∧
        LeastCover 0 f.exact.cellMm (25 * d.exact.height) m ∧
        LeastCover 0 f.exact.cellMm (25 * d.exact.width) n) ∧
      0 ≤ f.exact.surcharge d.exact ∧
      (∀ d' : Dimensions Float, d'.IsFiniteNonneg → d.width ≤ d'.width → d.height ≤ d'.height →
        f.exact.surcharge d.exact ≤ f.exact.surcharge d'.exact) ∧
      (f.QuotientsExact d → f.IsExact d) := by
  have hf := isUsable_exact hvalid
  obtain ⟨r, c, hlayout, hpanels⟩ := hf.exists_layout d.exact
  obtain ⟨m, n, hgearing, hm, hn⟩ :=
    hf.exists_gearing hd.exact_height_nonneg hd.exact_width_nonneg
  have hsurcharge := surcharge_eq hm hn
  have hoversized := hlayout.isOversized_iff
  refine ⟨r, c, _, _, m, n, ⟨hpanels, hlayout.rows, hlayout.columns⟩,
    ⟨isOversized_exact hvalid hd ▸ hoversized, hoversized⟩,
    ⟨hlayout.panelSize_eq hpanels hd.exact_height_nonneg hd.exact_width_nonneg,
      isShare_floor hlayout.rows, isShare_floor hlayout.columns⟩,
    ⟨hsurcharge, hgearing.rows, hgearing.columns⟩, ?_, fun d' hd' hwidth hheight ↦ ?_,
    fun h ↦ h.isExact hvalid hd⟩
  · have hcount : 0 ≤ m * n := Int.mul_nonneg hgearing.rows.least_le hgearing.columns.least_le
    rw [hsurcharge]
    exact mul_nonneg hf.unitPrice_nonneg (by exact_mod_cast hcount)
  · obtain ⟨m', n', hgearing', hm', hn'⟩ :=
      hf.exists_gearing hd'.exact_height_nonneg hd'.exact_width_nonneg
    have hcount : m * n ≤ m' * n' := hgearing.mul_le_mul hgearing'
      ((le_iff_rational hd.isFinite_height hd'.isFinite_height).1 hheight)
      ((le_iff_rational hd.isFinite_width hd'.isFinite_width).1 hwidth)
    rw [hsurcharge, surcharge_eq hm' hn']
    exact mul_le_mul_of_nonneg_left (by exact_mod_cast hcount) hf.unitPrice_nonneg

/-- Three rows and two columns of panels of the standard family, with no quotient rounded. -/
def wideDamper : Dimensions Float := ⟨120, 90⟩

theorem quotientsExact_wideDamper : standard.QuotientsExact wideDamper :=
  ⟨by decide +kernel, by decide +kernel, by decide +kernel, by decide +kernel, by decide +kernel,
    by decide +kernel⟩

theorem layout_of_validate_standard : ∃ r c : ℤ,
    standard.exact.panels wideDamper.exact = (↑r, ↑c) ∧ 1 < r * c ∧
      value? (standard.panels wideDamper).1 = some (r : ℚ) ∧
      value? (standard.panels wideDamper).2 = some (c : ℚ) := by
  obtain ⟨r, c, p, q, m, n, ⟨hpanels, -⟩, ⟨hoversized, -⟩, -, -, -, -, hexact⟩ :=
    layout_of_validate standard (eq_ok_of_toOption (by decide +kernel)) wideDamper
      ⟨by decide +kernel, by decide +kernel, by decide +kernel, by decide +kernel⟩
  have hcomputed := hexact quotientsExact_wideDamper
  have hrows := hcomputed.rows
  have hcolumns := hcomputed.columns
  rw [hpanels] at hrows hcolumns
  exact ⟨r, c, hpanels, hoversized.1 (by decide +kernel), hrows, hcolumns⟩

end HandGearFamily

end Ventilation
