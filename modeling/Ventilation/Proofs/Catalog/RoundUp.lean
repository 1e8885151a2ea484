import Mathlib.Data.Prod.Lex
import Mathlib.Tactic.Linarith
import Ventilation.Proofs.Catalog.RowOrder
import Ventilation.Proofs.Number.Nonneg

/-!
# Rounding up

Of the tabulated sizes that cover a request the best one is taken: it has the least total overshoot,
and of those with the same the least width, then the least height. A tabulated size is rounded to
itself, and the order in which the sizes are listed does not matter. The overshoot is a sum of two
differences. Rounded to binary64 it may be the same for sizes that go beyond the request by
different amounts; where it is exact, or computed without rounding, the size taken has the least.
-/

set_option autoImplicit false
set_option relaxedAutoImplicit false

namespace Ventilation

/-! ### The best that covers a request -/

/-- How a request is rounded: what an element stands for, which elements cover a request, and by
what these are compared. -/
structure Criterion (β κ σ : Type) where
  value : β → σ
  Covers : β → β → Prop
  rank : β → β → κ

namespace Criterion

variable {β κ σ : Type} [LinearOrder κ]

/-- Rounding fails only if nothing covers the request, and otherwise gives the best element that
does. If the request is listed, it gives the request. It gives the same for the elements in any
order, and if it is repeated with what it gave. -/
structure IsOptimal (c : Criterion β κ σ) (round : List β → β → Option β) (xs : List β)
    (request : β) : Prop where
  none_iff : round xs request = none ↔ ∀ x ∈ xs, ¬ c.Covers request x
  best : ∀ x, round xs request = some x → x ∈ xs ∧ c.Covers request x ∧
    ∀ y ∈ xs, c.Covers request y → c.rank request x ≤ c.rank request y
  listed : ∀ x ∈ xs, c.value x = c.value request →
    (round xs request).map c.value = some (c.value request)
  reordered : ∀ ys, xs.Perm ys → (round ys request).map c.value = (round xs request).map c.value
  again : ∀ x, round xs request = some x → (round xs x).map c.value = some (c.value x)

/-- The tests `qualifies` and `precedes` decide, for usable elements, what covers a request and
which of two that do has the lower rank. Nothing has a lower rank than the request itself. -/
structure Governs (c : Criterion β κ σ) (Usable : β → Prop) (qualifies : β → β → Bool)
    (precedes : β → β → β → Bool) : Prop where
  qualifies_iff : ∀ {r x}, Usable r → Usable x → (qualifies r x = true ↔ c.Covers r x)
  precedes_eq : ∀ {r a b}, Usable r → Usable a → Usable b → c.Covers r a → c.Covers r b →
    precedes r a b = decide (c.rank r a < c.rank r b)
  covers_self : ∀ {r x}, c.value x = c.value r → c.Covers r x
  rank_le : ∀ {r x y}, Usable r → Usable x → Usable y → c.value x = c.value r → c.Covers r y →
    c.rank r x ≤ c.rank r y
  value_eq : ∀ {r a b}, c.rank r a = c.rank r b → c.value a = c.value b

namespace Governs

variable {c : Criterion β κ σ} {Usable : β → Prop} {qualifies : β → β → Bool}
  {precedes : β → β → β → Bool} {xs : List β} {request x : β}

theorem mem_filter_iff (h : c.Governs Usable qualifies precedes) (hxs : ∀ x ∈ xs, Usable x)
    (hrequest : Usable request) :
    x ∈ xs.filter (qualifies request) ↔ x ∈ xs ∧ c.Covers request x := by
  rw [List.mem_filter]
  exact and_congr_right fun hx ↦ h.qualifies_iff hrequest (hxs x hx)

theorem precedes_eq_of_mem (h : c.Governs Usable qualifies precedes) (hxs : ∀ x ∈ xs, Usable x)
    (hrequest : Usable request) :
    ∀ a ∈ xs.filter (qualifies request), ∀ b ∈ xs.filter (qualifies request),
      precedes request a b = decide (c.rank request a < c.rank request b) := by
  intro a ha b hb
  obtain ⟨ha, hacovers⟩ := (h.mem_filter_iff hxs hrequest).1 ha
  obtain ⟨hb, hbcovers⟩ := (h.mem_filter_iff hxs hrequest).1 hb
  exact h.precedes_eq hrequest (hxs a ha) (hxs b hb) hacovers hbcovers

theorem best (h : c.Governs Usable qualifies precedes) (hxs : ∀ x ∈ xs, Usable x)
    (hrequest : Usable request)
    (hx : foremost? (precedes request) (xs.filter (qualifies request)) = some x) :
    x ∈ xs ∧ c.Covers request x ∧
      ∀ y ∈ xs, c.Covers request y → c.rank request x ≤ c.rank request y := by
  obtain ⟨hmem, hcovers⟩ := (h.mem_filter_iff hxs hrequest).1 (mem_of_foremost? hx)
  exact ⟨hmem, hcovers, fun y hy hycovers ↦
    key_le_of_foremost? (c.rank request) (h.precedes_eq_of_mem hxs hrequest) hx y
      ((h.mem_filter_iff hxs hrequest).2 ⟨hy, hycovers⟩)⟩

/-- The request itself has the lowest rank, and nothing else has that rank. -/
theorem listed (h : c.Governs Usable qualifies precedes) (hxs : ∀ x ∈ xs, Usable x)
    (hrequest : Usable request) (hx : x ∈ xs) (hvalue : c.value x = c.value request) :
    (foremost? (precedes request) (xs.filter (qualifies request))).map c.value =
      some (c.value request) := by
  have hcovers := h.covers_self hvalue
  obtain ⟨y, hy⟩ : ∃ y, foremost? (precedes request) (xs.filter (qualifies request)) = some y :=
    exists_foremost? ((h.mem_filter_iff hxs hrequest).2 ⟨hx, hcovers⟩)
  obtain ⟨hymem, hycovers, hbest⟩ := h.best hxs hrequest hy
  have hle := h.rank_le hrequest (hxs x hx) (hxs y hymem) hvalue hycovers
  rw [hy, Option.map_some, h.value_eq (le_antisymm (hbest x hx hcovers) hle), hvalue]

theorem reordered (h : c.Governs Usable qualifies precedes) (hxs : ∀ x ∈ xs, Usable x)
    (hrequest : Usable request) {ys : List β} (hperm : xs.Perm ys) :
    (foremost? (precedes request) (ys.filter (qualifies request))).map c.value =
      (foremost? (precedes request) (xs.filter (qualifies request))).map c.value := by
  have hranks := map_key_foremost?_of_perm (c.rank request) (h.precedes_eq_of_mem hxs hrequest)
    (hperm.filter (qualifies request))
  cases hx : foremost? (precedes request) (xs.filter (qualifies request)) with
  | none =>
    rw [hx, Option.map_none, eq_comm, Option.map_eq_none_iff] at hranks
    rw [hranks]
  | some x =>
    rw [hx, Option.map_some, eq_comm, Option.map_eq_some_iff] at hranks
    obtain ⟨y, hy, hrank⟩ := hranks
    rw [hy, Option.map_some, Option.map_some, h.value_eq hrank]

theorem isOptimal (h : c.Governs Usable qualifies precedes) (hxs : ∀ x ∈ xs, Usable x)
    (hrequest : Usable request) :
    c.IsOptimal (fun xs request ↦ foremost? (precedes request) (xs.filter (qualifies request))) xs
      request where
  none_iff := by
    rw [foremost?_eq_none_iff, List.filter_eq_nil_iff]
    exact forall₂_congr fun x hx ↦ not_congr (h.qualifies_iff hrequest (hxs x hx))
  best _ := h.best hxs hrequest
  listed _ := h.listed hxs hrequest
  reordered _ := h.reordered hxs hrequest
  again x hx := by
    have hmem := (h.best hxs hrequest hx).1
    exact h.listed hxs (hxs x hmem) hmem rfl

end Governs

end Criterion

/-! ### Sizes and single values -/

section Criteria

variable {α κ : Type}

/-- Values are compared as they are. -/
def valueCriterion (value : α → ℚ) : Criterion α ℚ ℚ where
  value := value
  Covers requested v := value requested ≤ value v
  rank _ v := value v

/-- Sizes, each a width and a height, are compared by overshoot, then width, then height. -/
def sizeCriterion (value : α → ℚ) (excess : α × α → α × α → κ) :
    Criterion (α × α) (κ ×ₗ ℚ ×ₗ ℚ) (ℚ × ℚ) where
  value size := (value size.1, value size.2)
  Covers request size := value request.1 ≤ value size.1 ∧ value request.2 ≤ value size.2
  rank request size := toLex (excess request size, toLex (value size.1, value size.2))

/-- By how much the sides of a size go beyond the requested ones together. -/
def excess (value : α → ℚ) (request size : α × α) : ℚ :=
  (value size.1 - value request.1) + (value size.2 - value request.2)

/-- A size is rounded up by its sides. -/
def roundUp? [Scalar α] (sizes : List (α × α)) (request : α × α) : Option (α × α) :=
  roundUpSize? sizes request.1 request.2

/-- Both sides of a size are usable. -/
def BothSides (Usable : α → Prop) (size : α × α) : Prop := Usable size.1 ∧ Usable size.2

/-- The tests of `roundUpSize?` follow the criterion if they do so for single numbers and for
overshoots. -/
theorem governs_sizeCriterion [Scalar α] [LinearOrder κ] {value : α → ℚ} {Usable : α → Prop}
    {excess : α × α → α × α → κ}
    (hle : ∀ x y, Usable x → Usable y → (x ≤ y ↔ value x ≤ value y))
    (hbetter : ∀ r a b, BothSides Usable r → BothSides Usable a → BothSides Usable b →
      (sizeCriterion value excess).Covers r a → (sizeCriterion value excess).Covers r b →
      fitsBetter r.1 r.2 a b =
        decide ((sizeCriterion value excess).rank r a < (sizeCriterion value excess).rank r b))
    (hexcess : ∀ r x y, BothSides Usable r → BothSides Usable x → BothSides Usable y →
      (sizeCriterion value excess).value x = (sizeCriterion value excess).value r →
      (sizeCriterion value excess).Covers r y → excess r x ≤ excess r y) :
    (sizeCriterion value excess).Governs (BothSides Usable)
      (fun r size ↦ decide (r.1 ≤ size.1) && decide (r.2 ≤ size.2))
      (fun r ↦ fitsBetter r.1 r.2) where
  qualifies_iff hr hx := by
    rw [Bool.and_eq_true, decide_eq_true_eq, decide_eq_true_eq, hle _ _ hr.1 hx.1,
      hle _ _ hr.2 hx.2]
    exact Iff.rfl
  precedes_eq hr ha hb := hbetter _ _ _ hr ha hb
  covers_self hvalue := by
    obtain ⟨hwidth, hheight⟩ := Prod.mk.inj hvalue
    exact ⟨hwidth.ge, hheight.ge⟩
  rank_le hr hx hy hvalue hcovers := by
    obtain ⟨hwidth, hheight⟩ := Prod.mk.inj hvalue
    refine Prod.Lex.toLex_le_toLex'.2 ⟨hexcess _ _ _ hr hx hy hvalue hcovers, fun _ ↦ ?_⟩
    exact Prod.Lex.toLex_le_toLex'.2 ⟨hwidth.trans_le hcovers.1, fun _ ↦ hheight.trans_le hcovers.2⟩
  value_eq hrank := toLex.injective (Prod.mk.inj (toLex.injective hrank)).2

theorem governs_valueCriterion [Scalar α] {value : α → ℚ} {Usable : α → Prop}
    (hle : ∀ x y, Usable x → Usable y → (x ≤ y ↔ value x ≤ value y))
    (hlt : ∀ x y, Usable x → Usable y → (x < y ↔ value x < value y)) :
    (valueCriterion value).Governs Usable (fun r v ↦ decide (r ≤ v))
      (fun _ a b ↦ decide (a < b)) where
  qualifies_iff hr hx := by
    rw [decide_eq_true_eq]
    exact hle _ _ hr hx
  precedes_eq _ ha hb _ _ := decide_eq_decide.2 (hlt _ _ ha hb)
  covers_self hvalue := hvalue.ge
  rank_le _ _ _ hvalue hcovers := hvalue.trans_le hcovers
  value_eq hrank := hrank

end Criteria

/-! ### Rounding up without rounding errors -/

theorem overshoot_eq_excess (request size : ℚ × ℚ) :
    overshoot request.1 request.2 size = excess id request size := by
  unfold overshoot
  split
  · next h =>
    rw [Bool.and_eq_true, beq_iff_eq, beq_iff_eq] at h
    simp [excess, h.1, h.2, Scalar.ofNat]
  · rfl

theorem governs_rat :
    (sizeCriterion id (excess id)).Governs (BothSides fun _ : ℚ ↦ True)
      (fun r size ↦ decide (r.1 ≤ size.1) && decide (r.2 ≤ size.2))
      (fun r ↦ fitsBetter r.1 r.2) := by
  refine governs_sizeCriterion (fun _ _ _ _ ↦ Iff.rfl) ?_ ?_
  · intro r a b _ _ _ _ _
    unfold fitsBetter
    simp only [overshoot_eq_excess]
    rw [Bool.eq_iff_iff]
    simp only [sizeCriterion, Bool.or_eq_true, Bool.and_eq_true, decide_eq_true_eq, beq_iff_eq,
      Prod.Lex.toLex_lt_toLex, id_eq]
  · rintro r x y - - - hvalue ⟨hwidth, hheight⟩
    obtain ⟨hxw, hxh⟩ := Prod.mk.inj hvalue
    simp only [excess, id_eq] at hxw hxh hwidth hheight ⊢
    linarith

/-! ### Rounding up finite numbers -/

section Binary64

open Binary64

variable {request : Float × Float}

/-- The overshoot of a size as it is computed, by its place among all numbers. -/
def computedExcess (request size : Float × Float) : ℤ :=
  place (overshoot request.1 request.2 size)

theorem isSome_value?_of_isFinite {x : Float} (h : x.isFinite = true) :
    (value? x).isSome = true := by
  rw [value?_of_isFinite h]
  rfl

theorem isNonneg_overshoot_of_covers {size : Float × Float}
    (hrequest : BothSides (·.isFinite = true) request) (hsize : BothSides (·.isFinite = true) size)
    (hwidth : rational request.1 ≤ rational size.1)
    (hheight : rational request.2 ≤ rational size.2) :
    IsNonneg (overshoot request.1 request.2 size) :=
  isNonneg_overshoot ⟨isSome_value?_of_isFinite hsize.1, isSome_value?_of_isFinite hsize.2⟩
    ((le_iff_rational hrequest.1 hsize.1).2 hwidth) ((le_iff_rational hrequest.2 hsize.2).2 hheight)

theorem computedExcess_self {size : Float × Float}
    (hrequest : BothSides (·.isFinite = true) request) (hsize : BothSides (·.isFinite = true) size)
    (hwidth : rational size.1 = rational request.1)
    (hheight : rational size.2 = rational request.2) : computedExcess request size = 0 := by
  unfold computedExcess overshoot
  rw [if_pos]
  · decide +kernel
  · rw [Bool.and_eq_true, beq_iff_rational hsize.1 hrequest.1, beq_iff_rational hsize.2 hrequest.2]
    exact ⟨hwidth, hheight⟩

theorem governs_finite :
    (sizeCriterion rational computedExcess).Governs (BothSides (·.isFinite = true))
      (fun r size ↦ decide (r.1 ≤ size.1) && decide (r.2 ≤ size.2))
      (fun r ↦ fitsBetter r.1 r.2) := by
  refine governs_sizeCriterion (fun _ _ ↦ le_iff_rational) ?_ ?_
  · rintro r a b hr ha hb ⟨haw, hah⟩ ⟨hbw, hbh⟩
    have hao := (isNonneg_overshoot_of_covers hr ha haw hah).isNumber
    have hbo := (isNonneg_overshoot_of_covers hr hb hbw hbh).isNumber
    rw [fitsBetter_eq hao hbo (isNumber_of_isFinite ha.1) (isNumber_of_isFinite ha.2)
      (isNumber_of_isFinite hb.1) (isNumber_of_isFinite hb.2), decide_eq_decide]
    simp only [fitKey, sizeCriterion, computedExcess, Prod.Lex.toLex_lt_toLex,
      place_lt_place_iff ha.1 hb.1, place_eq_place_iff ha.1 hb.1, place_lt_place_iff ha.2 hb.2]
  · rintro r x y hr hx hy hvalue ⟨hwidth, hheight⟩
    obtain ⟨hxw, hxh⟩ := Prod.mk.inj hvalue
    rw [computedExcess_self hr hx hxw hxh]
    exact (isNonneg_overshoot_of_covers hr hy hwidth hheight).place_nonneg

/-- The least rank by computed overshoots is the least one by exact overshoots if no overshoot that
matters is rounded. -/
theorem isOptimal_of_exact {sizes : List (Float × Float)}
    (h : (sizeCriterion rational computedExcess).IsOptimal roundUp? sizes request)
    (hexact : ∀ size ∈ sizes, (sizeCriterion rational computedExcess).Covers request size →
      value? (overshoot request.1 request.2 size) = some (excess rational request size)) :
    (sizeCriterion rational (excess rational)).IsOptimal roundUp? sizes request := by
  refine ⟨h.none_iff, fun x hx ↦ ?_, h.listed, h.reordered, h.again⟩
  obtain ⟨hmem, hcovers, hbest⟩ := h.best x hx
  refine ⟨hmem, hcovers, fun y hy hycovers ↦ ?_⟩
  have hxvalue := hexact x hmem hcovers
  have hyvalue := hexact y hy hycovers
  obtain ⟨hle, hsides⟩ := Prod.Lex.toLex_le_toLex'.1 (hbest y hy hycovers)
  refine Prod.Lex.toLex_le_toLex'.2 ⟨(value?_le_iff hxvalue hyvalue).2 hle, fun heq ↦ hsides ?_⟩
  exact le_antisymm hle ((value?_le_iff hyvalue hxvalue).1 heq.ge)

end Binary64

/-- Rounding up is optimal and stable, for sizes and for single values: of rational numbers, and of
finite ones in binary64 with the overshoot as it is computed. Where the overshoots of the sizes that
cover the request are exact, the size taken is the best by these. -/
theorem isOptimal_roundUp :
    (∀ (sizes : List (ℚ × ℚ)) (request : ℚ × ℚ),
      (sizeCriterion id (excess id)).IsOptimal roundUp? sizes request) ∧
    (∀ (values : List ℚ) (requested : ℚ),
      (valueCriterion id).IsOptimal roundUpValue? values requested) ∧
    (∀ (sizes : List (Float × Float)) (request : Float × Float),
      (∀ size ∈ sizes, BothSides (·.isFinite = true) size) →
      BothSides (·.isFinite = true) request →
        (sizeCriterion Binary64.rational computedExcess).IsOptimal roundUp? sizes request ∧
        ((∀ size ∈ sizes,
            (sizeCriterion Binary64.rational computedExcess).Covers request size →
            Binary64.value? (overshoot request.1 request.2 size) =
              some (excess Binary64.rational request size)) →
          (sizeCriterion Binary64.rational (excess Binary64.rational)).IsOptimal roundUp? sizes
            request)) ∧
    ∀ (values : List Float) (requested : Float), (∀ v ∈ values, v.isFinite = true) →
      requested.isFinite = true →
        (valueCriterion Binary64.rational).IsOptimal roundUpValue? values requested := by
  refine ⟨fun sizes request ↦ ?_, fun values requested ↦ ?_, fun sizes request hsizes hrequest ↦ ?_,
    fun values requested hvalues hrequested ↦ ?_⟩
  · exact governs_rat.isOptimal (fun _ _ ↦ ⟨trivial, trivial⟩) ⟨trivial, trivial⟩
  · have hgoverns : (valueCriterion id).Governs (fun _ : ℚ ↦ True) (fun r v ↦ decide (r ≤ v))
        fun _ a b ↦ decide (a < b) :=
      governs_valueCriterion (fun _ _ _ _ ↦ Iff.rfl) fun _ _ _ _ ↦ Iff.rfl
    exact hgoverns.isOptimal (fun _ _ ↦ trivial) trivial
  · have hoptimal : (sizeCriterion Binary64.rational computedExcess).IsOptimal roundUp? sizes
        request := governs_finite.isOptimal hsizes hrequest
    exact ⟨hoptimal, isOptimal_of_exact hoptimal⟩
  · have hgoverns := governs_valueCriterion (fun _ _ ↦ Binary64.le_iff_rational)
      fun _ _ ↦ Binary64.lt_iff_rational
    exact hgoverns.isOptimal hvalues hrequested

/-- Sizes of which the first two go beyond 10 by 6 by the same amount, the first one being wider. -/
def tiedSizes : List (Float × Float) := [(16, 8), (12, 12), (16.5, 12), (8, 40)]

theorem isOptimal_roundUp_tied :
    (∀ size ∈ tiedSizes, BothSides (·.isFinite = true) size) ∧
    (sizeCriterion Binary64.rational (excess Binary64.rational)).IsOptimal roundUp? tiedSizes
      (10, 6) ∧
    (roundUp? tiedSizes (10, 6)).map (sizeCriterion Binary64.rational computedExcess).value =
      some (12, 12) := by
  have hfinite : ∀ size ∈ tiedSizes, BothSides (·.isFinite = true) size := by
    unfold BothSides
    decide +kernel
  have hrequest : BothSides (·.isFinite = true) ((10 : Float), (6 : Float)) :=
    ⟨by decide +kernel, by decide +kernel⟩
  have hexact : ∀ size ∈ tiedSizes,
      Binary64.value? (overshoot 10 6 size) = some (excess Binary64.rational (10, 6) size) := by
    decide +kernel
  exact ⟨hfinite, (isOptimal_roundUp.2.2.1 tiedSizes (10, 6) hfinite hrequest).2
    fun size hsize _ ↦ hexact size hsize, by decide +kernel⟩

end Ventilation
