import Ventilation.Proofs.Catalog.Edge
import Ventilation.Proofs.Pricing.RoundedSize

/-!
# Where the price of a rectangle comes from

Within the edges of its table a rectangle has the two columns of the row at exactly its size, and
no rate has a part in its price. Beyond an edge it has the price per square inch of that edge, and
no row has. No rectangle has both sources.
-/

set_option autoImplicit false
set_option relaxedAutoImplicit false

namespace Ventilation

open Binary64

namespace Catalog

variable {c : Catalog Float} {tableId : Int} {d : Dimensions Float} {m : Float}
  {prices : List (PriceRow Float)} {rows columns : List (EdgeRate Float)}

/-- A row of the table at exactly this rectangle. -/
structure IsRowAt (c : Catalog Float) (tableId : Int) (d : Dimensions Float)
    (row : PriceRow Float) : Prop where
  mem : row ∈ c.prices.getD []
  tableId_eq : row.tableId = tableId
  height : isAt row.height d.height = true
  width : isAt row.width d.width = true

/-- Whether a size is within both edges of its table, or the table has no edges. -/
def Within (c : Catalog Float) (tableId : Int) (d : Dimensions Float) : Prop :=
  ¬ c.BeyondWidth tableId d.width ∧ ¬ c.BeyondHeight tableId d.height

theorem not_within_iff :
    ¬ c.Within tableId d ↔ c.BeyondWidth tableId d.width ∨ c.BeyondHeight tableId d.height := by
  unfold Within
  rw [not_and_or, not_not, not_not]

theorem priceAt?_of_isRowAt (hrectangles : prices.Pairwise fun a b ↦ ¬ a.SameRectangle b)
    (hprices : c.prices = some prices) {row : PriceRow Float} (hrow : c.IsRowAt tableId d row) :
    c.priceAt? tableId d.height d.width = .ok row.tablePrice? := by
  have hmem := (mem_rowsOf (rowsOf_eq hprices tableId)).2 ⟨hrow.mem, hrow.tableId_eq⟩
  have hunique : (c.prices.getD []).Pairwise fun a b ↦ ¬ a.SameRectangle b := by
    rw [hprices]
    exact hrectangles
  exact priceAt?_of_rectangle hunique (rowsOf_eq hprices tableId) hmem hrow.height hrow.width

theorem priceAt?_of_no_row (hprices : c.prices = some prices)
    (hnone : ∀ row, ¬ c.IsRowAt tableId d row) :
    c.priceAt? tableId d.height d.width = .ok none := by
  refine priceAt?_of_no_rectangle (rowsOf_eq hprices tableId) fun row hrow hheight hwidth ↦ ?_
  obtain ⟨hmem, htable⟩ := (mem_rowsOf (rowsOf_eq hprices tableId)).1 hrow
  exact hnone row ⟨hmem, htable, hheight, hwidth⟩

/-! ### The two sources -/

/-- Neither the edges of a table nor its rows are made of rates. -/
theorem rectangularPrice?_withRates_of_within (hc : c.Numeric) (hprices : c.prices = some prices)
    (hwithin : c.Within tableId d) (rates rates' : Option (List (EdgeRate Float))) :
    (c.withRates rates rates').rectangularPrice? tableId d =
      c.priceAt? tableId d.height d.width :=
  Engine.rectangularPrice?_of_exceededRate?
    (exceededRate?_withRates_of_within hc hprices hwithin.1 hwithin.2 rates rates')

theorem rectangularPrice?_of_within (hc : c.Numeric) (hprices : c.prices = some prices)
    (hwithin : c.Within tableId d) :
    c.rectangularPrice? tableId d = c.priceAt? tableId d.height d.width :=
  rectangularPrice?_withRates_of_within hc hprices hwithin c.rowMultipliers c.columnMultipliers

theorem rectangularPrice?_of_rate {found : Option Float}
    (h : c.exceededRate? tableId d.width d.height false = .ok (some m))
    (hdamper : c.exceededRate? tableId d.width d.height true = .ok found) :
    c.rectangularPrice? tableId d = .ok (some ⟨some (d.height * d.width * m),
      some ((found.map fun m ↦ d.height * d.width * m).getD (d.height * d.width * m))⟩) := by
  unfold rectangularPrice?
  rw [h, hdamper]
  rfl

/-- Beyond an edge there is no row to fall back to. -/
theorem rectangularPrice?_of_no_rate (hc : c.Numeric) (hkeys : c.UniqueKeys)
    (hprices : c.prices = some prices) (hrows : c.rowMultipliers = some rows)
    (hcolumns : c.columnMultipliers = some columns) (hbeyond : ¬ c.Within tableId d)
    (hnone : ∀ m, ¬ c.RateBeyond tableId d.width d.height false m) :
    c.rectangularPrice? tableId d = .ok none := by
  obtain ⟨found, hfound⟩ :=
    exists_exceededRate? hc hprices hrows hcolumns tableId d.width d.height false
  cases found with
  | some m =>
    exact absurd ((exceededRate?_eq_some_iff hc hkeys hprices hrows hcolumns).1 hfound) (hnone m)
  | none =>
    rw [Engine.rectangularPrice?_of_exceededRate? hfound]
    refine priceAt?_of_no_row hprices fun row hrow ↦ ?_
    exact not_isAt_of_beyond (not_within_iff.1 hbeyond) hrow.mem hrow.tableId_eq hrow.height
      hrow.width

/-- Beyond an edge the price is that of the rate, which an item with damper may have a variant
of. -/
theorem rectangularPrice?_of_rateBeyond (hc : c.Numeric) (hkeys : c.UniqueKeys)
    (hprices : c.prices = some prices) (hrows : c.rowMultipliers = some rows)
    (hcolumns : c.columnMultipliers = some columns)
    (hm : c.RateBeyond tableId d.width d.height false m) :
    (∀ m', c.RateBeyond tableId d.width d.height true m' → c.rectangularPrice? tableId d =
      .ok (some ⟨some (d.height * d.width * m), some (d.height * d.width * m')⟩)) ∧
    ((∀ m', ¬ c.RateBeyond tableId d.width d.height true m') → c.rectangularPrice? tableId d =
      .ok (some ⟨some (d.height * d.width * m), some (d.height * d.width * m)⟩)) := by
  have hiff : ∀ damper m, c.exceededRate? tableId d.width d.height damper = .ok (some m) ↔
      c.RateBeyond tableId d.width d.height damper m :=
    fun damper m ↦ exceededRate?_eq_some_iff hc hkeys hprices hrows hcolumns
  constructor
  · intro m' hm'
    exact rectangularPrice?_of_rate ((hiff false m).2 hm) ((hiff true m').2 hm')
  · intro hnone
    obtain ⟨found, hfound⟩ :=
      exists_exceededRate? hc hprices hrows hcolumns tableId d.width d.height true
    cases found with
    | some m' => exact absurd ((hiff true m').1 hfound) (hnone m')
    | none => exact rectangularPrice?_of_rate ((hiff false m).2 hm) hfound

/-- What a rectangle costs. Within the edges it is the two columns of the row at its size, nothing
where there is no row or both columns are empty, whatever the rates are. Beyond an edge there is a
price if and only if there is a regular rate, and it is the area at that rate, with damper at the
rate for dampers if there is one. -/
theorem rectangularPrice_from_one_source (c : Catalog Float) (hc : c.Numeric) (hkeys : c.UniqueKeys)
    (hprices : c.prices = some prices) (hrows : c.rowMultipliers = some rows)
    (hcolumns : c.columnMultipliers = some columns)
    (hrectangles : prices.Pairwise fun a b ↦ ¬ a.SameRectangle b) (tableId : Int)
    (d : Dimensions Float) :
    (c.Within tableId d →
      (∀ rates rates',
        (c.withRates rates rates').rectangularPrice? tableId d = c.rectangularPrice? tableId d) ∧
      (∀ row, c.IsRowAt tableId d row → c.rectangularPrice? tableId d =
        .ok (if row.normalPrice = none ∧ row.priceWithDamper = none then none
          else some ⟨row.normalPrice, row.priceWithDamper⟩)) ∧
      ((∀ row, ¬ c.IsRowAt tableId d row) → c.rectangularPrice? tableId d = .ok none)) ∧
    (c.BeyondWidth tableId d.width ∨ c.BeyondHeight tableId d.height →
      ((∃ p, c.rectangularPrice? tableId d = .ok (some p)) ↔
        ∃ m, c.RateBeyond tableId d.width d.height false m) ∧
      ((∀ m, ¬ c.RateBeyond tableId d.width d.height false m) →
        c.rectangularPrice? tableId d = .ok none) ∧
      ∀ m, c.RateBeyond tableId d.width d.height false m →
        (∀ m', c.RateBeyond tableId d.width d.height true m' → c.rectangularPrice? tableId d =
          .ok (some ⟨some (d.height * d.width * m), some (d.height * d.width * m')⟩)) ∧
        ((∀ m', ¬ c.RateBeyond tableId d.width d.height true m') → c.rectangularPrice? tableId d =
          .ok (some ⟨some (d.height * d.width * m), some (d.height * d.width * m)⟩))) := by
  constructor
  · intro hwithin
    rw [rectangularPrice?_of_within hc hprices hwithin]
    refine ⟨rectangularPrice?_withRates_of_within hc hprices hwithin, fun row hrow ↦ ?_,
      priceAt?_of_no_row hprices⟩
    · rw [priceAt?_of_isRowAt hrectangles hprices hrow]
      unfold PriceRow.tablePrice? TablePrice.ofColumns?
      cases row.normalPrice <;> cases row.priceWithDamper <;> rfl
  · intro hbeyond
    have hnone := rectangularPrice?_of_no_rate hc hkeys hprices hrows hcolumns
      (not_within_iff.2 hbeyond)
    refine ⟨⟨?_, ?_⟩, hnone, fun m ↦
      rectangularPrice?_of_rateBeyond hc hkeys hprices hrows hcolumns⟩
    · rintro ⟨p, hp⟩
      by_contra hno
      rw [hnone fun m hm ↦ hno ⟨m, hm⟩] at hp
      cases hp
    · rintro ⟨m, hm⟩
      obtain ⟨hdamper, hregular⟩ :=
        rectangularPrice?_of_rateBeyond hc hkeys hprices hrows hcolumns hm
      by_cases hm' : ∃ m', c.RateBeyond tableId d.width d.height true m'
      · obtain ⟨m', hm'⟩ := hm'
        exact ⟨_, hdamper m' hm'⟩
      · exact ⟨_, hregular fun m' h ↦ hm' ⟨m', h⟩⟩

/-- A table of two rectangles, the larger one without prices. The highest column entry has a rate
for dampers only. -/
def edged : Catalog Float where
  products := some []
  prices := some [⟨1, 1, some 10, some 10, some 100, some 120, none⟩,
    ⟨2, 1, some 20, some 20, none, none, none⟩]
  rowMultipliers := some [⟨1, 10, some 2, none⟩, ⟨1, 20, some 3, none⟩]
  columnMultipliers := some [⟨1, 10, some 4, some 5⟩, ⟨1, 20, none, some 6⟩]

/-- Ten inches square is tabulated. Beyond the width alone a height of ten has the rate of its
entry and a height of twenty has none, although a lower entry has one. Beyond both edges the
regular rate is that of the row entry, the only one there is, and the one for dampers that of the
column entry. -/
theorem rectangularPrice_from_one_source_edged :
    edged.rectangularPrice? 1 ⟨10, 10⟩ = .ok (some ⟨some 100, some 120⟩) ∧
    edged.rectangularPrice? 1 ⟨30, 10⟩ = .ok (some ⟨some (10 * 30 * 4), some (10 * 30 * 5)⟩) ∧
    edged.rectangularPrice? 1 ⟨30, 20⟩ = .ok none ∧
    edged.rectangularPrice? 1 ⟨30, 30⟩ = .ok (some ⟨some (30 * 30 * 3), some (30 * 30 * 6)⟩) := by
  have hc : edged.Numeric := by decide +kernel
  have hkeys : edged.UniqueKeys := by decide +kernel
  have hrectangles : (edged.prices.getD []).Pairwise fun a b ↦ ¬ a.SameRectangle b := by
    decide +kernel
  have hedges : edged.HasEdges 1 20 20 :=
    hasEdges_of_maxDimensions? hc rfl (eq_ok_of_toOption (by decide +kernel))
  have hiff : ∀ width height damper m,
      edged.exceededRate? 1 width height damper = .ok (some m) ↔
        edged.RateBeyond 1 width height damper m :=
    fun _ _ _ _ ↦ exceededRate?_eq_some_iff hc hkeys rfl rfl rfl
  have hbeyond : edged.BeyondWidth 1 30 := (beyondWidth_iff hedges).2 (by decide +kernel)
  have hsource := rectangularPrice_from_one_source edged hc hkeys rfl rfl rfl hrectangles 1
  refine ⟨?_, ?_, ?_, ?_⟩
  · have hwithin : edged.Within 1 ⟨10, 10⟩ := by
      unfold Within
      rw [beyondWidth_iff hedges, beyondHeight_iff hedges]
      decide +kernel
    exact ((hsource ⟨10, 10⟩).1 hwithin).2.1 ⟨1, 1, some 10, some 10, some 100, some 120, none⟩
      ⟨List.mem_cons_self, rfl, by decide +kernel, by decide +kernel⟩
  · have hm := (hiff 30 10 false 4).1 (eq_ok_of_toOption (by decide +kernel))
    have hm' := (hiff 30 10 true 5).1 (eq_ok_of_toOption (by decide +kernel))
    exact (((hsource ⟨30, 10⟩).2 (.inl hbeyond)).2.2 4 hm).1 5 hm'
  · refine ((hsource ⟨30, 20⟩).2 (.inl hbeyond)).2.1 fun m hm ↦ ?_
    have hnone : edged.exceededRate? 1 30 20 false = .ok none :=
      eq_ok_of_toOption (by decide +kernel)
    cases hnone.symm.trans ((hiff 30 20 false m).2 hm)
  · have hm := (hiff 30 30 false 3).1 (eq_ok_of_toOption (by decide +kernel))
    have hm' := (hiff 30 30 true 6).1 (eq_ok_of_toOption (by decide +kernel))
    exact (((hsource ⟨30, 30⟩).2 (.inl hbeyond)).2.2 3 hm).1 6 hm'

end Catalog

end Ventilation
