import Ventilation.Proofs.Number.Parts

/-!
The comparisons of numbers are the comparisons of their places: `lt_iff`, `le_iff` and `beq_iff`.
The place of a number is its word read as a magnitude with a sign, so that both zeros stand at 0
and every question about the order of numbers is one about whole numbers.
-/

set_option autoImplicit false
set_option relaxedAutoImplicit false

namespace Ventilation.Binary64

open Float.Model Float.Model.UnpackedFloat

/-! ### Places -/

/-- The place of a number on the line of all numbers. What is no number stands nowhere. -/
def Parts.place (p : Parts) : Int := bif p.isNegative then -p.magnitude else p.magnitude

def place (x : Float) : Int := (parts x).place

def IsNumber (x : Float) : Prop := parts x ≠ .nan

instance (x : Float) : Decidable (IsNumber x) := inferInstanceAs (Decidable (parts x ≠ .nan))

theorem Parts.magnitude_finite_eq_zero {negative : Bool} {mantissa : Nat} {exponent : Int}
    (hp : (Parts.finite negative mantissa exponent).IsCanonical) :
    (Parts.finite negative mantissa exponent).magnitude = 0 ↔ mantissa = 0 := by
  obtain ⟨hm, hle, hge, hnormal⟩ := hp
  simp only [magnitude]
  omega

private theorem compare_exponent_then {s t : Bool} {m n : Nat} {e f : Int}
    (hp : (Parts.finite s m e).IsCanonical) (hq : (Parts.finite t n f).IsCanonical) :
    (compare e f).then (compare m n) =
      compare (Parts.finite s m e).magnitude (Parts.finite t n f).magnitude := by
  obtain ⟨hm, hle, -, he⟩ := hp
  obtain ⟨hn, hlf, -, hf⟩ := hq
  simp only [Parts.magnitude]
  rcases Int.lt_trichotomy e f with h | rfl | h
  · have hmagnitude : (e + 1074).toNat * 2 ^ 52 + m < (f + 1074).toNat * 2 ^ 52 + n := by omega
    rw [Int.compare_eq_lt.2 h, Nat.compare_eq_lt.2 hmagnitude]
    rfl
  · rw [Int.compare_eq_eq.2 rfl]
    rcases Nat.lt_trichotomy m n with h | rfl | h
    · rw [Nat.compare_eq_lt.2 h, Nat.compare_eq_lt.2 (by omega)]
      rfl
    · rw [Nat.compare_eq_eq.2 rfl, Nat.compare_eq_eq.2 rfl]
      rfl
    · rw [Nat.compare_eq_gt.2 h, Nat.compare_eq_gt.2 (by omega)]
      rfl
  · have hmagnitude : (f + 1074).toNat * 2 ^ 52 + n < (e + 1074).toNat * 2 ^ 52 + m := by omega
    rw [Int.compare_eq_gt.2 h, Nat.compare_eq_gt.2 hmagnitude]
    rfl

private theorem swap_compare (a b : Nat) : (compare a b).swap = compare b a := by
  rcases Nat.lt_trichotomy a b with h | rfl | h
  · rw [Nat.compare_eq_lt.2 h, Nat.compare_eq_gt.2 h]
    rfl
  · rw [Nat.compare_eq_eq.2 rfl]
    rfl
  · rw [Nat.compare_eq_gt.2 h, Nat.compare_eq_lt.2 h]
    rfl

/-- The comparison of two signed magnitudes. -/
private theorem compare_place {p q : Parts} :
    compare p.place q.place =
      match p.isNegative, q.isNegative with
      | false, false => compare p.magnitude q.magnitude
      | true, true => compare q.magnitude p.magnitude
      | false, true => if p.magnitude = 0 ∧ q.magnitude = 0 then .eq else .gt
      | true, false => if p.magnitude = 0 ∧ q.magnitude = 0 then .eq else .lt := by
  unfold Parts.place
  generalize p.magnitude = a
  generalize q.magnitude = b
  cases p.isNegative <;> cases q.isNegative <;> simp only [cond_true, cond_false]
  · rcases Nat.lt_trichotomy a b with h | rfl | h
    · rw [Nat.compare_eq_lt.2 h, Int.compare_eq_lt.2 (by omega)]
    · rw [Nat.compare_eq_eq.2 rfl, Int.compare_eq_eq.2 rfl]
    · rw [Nat.compare_eq_gt.2 h, Int.compare_eq_gt.2 (by omega)]
  · by_cases h : a = 0 ∧ b = 0
    · rw [if_pos h, Int.compare_eq_eq.2 (by omega)]
    · rw [if_neg h, Int.compare_eq_gt.2 (by omega)]
  · by_cases h : a = 0 ∧ b = 0
    · rw [if_pos h, Int.compare_eq_eq.2 (by omega)]
    · rw [if_neg h, Int.compare_eq_lt.2 (by omega)]
  · rcases Nat.lt_trichotomy b a with h | rfl | h
    · rw [Nat.compare_eq_lt.2 h, Int.compare_eq_lt.2 (by omega)]
    · rw [Nat.compare_eq_eq.2 rfl, Int.compare_eq_eq.2 rfl]
    · rw [Nat.compare_eq_gt.2 h, Int.compare_eq_gt.2 (by omega)]

private theorem compare_finite {s t : Bool} {m n : Nat} {e f : Int}
    (hp : (Parts.finite s m e).IsCanonical) (hq : (Parts.finite t n f).IsCanonical) :
    (Parts.finite s m e).unpacked.compare (Parts.finite t n f).unpacked =
      some (compare (Parts.finite s m e).place (Parts.finite t n f).place) := by
  have hthen := compare_exponent_then hp hq
  have hm := Parts.magnitude_finite_eq_zero hp
  have hn := Parts.magnitude_finite_eq_zero hq
  rw [compare_place]
  generalize (Parts.finite s m e).magnitude = a at *
  generalize (Parts.finite t n f).magnitude = b at *
  by_cases hm0 : m = 0 <;> by_cases hn0 : n = 0 <;> cases s <;> cases t <;>
    simp only [Parts.unpacked, Parts.isNegative, signOf, hm0, hn0, hm, hn, ↓reduceDIte, ↓reduceIte,
      Bool.false_eq_true, UnpackedFloat.compare, Option.some.injEq, and_true, and_false] <;>
    first
      | exact hthen
      | rw [hthen, swap_compare]
      | exact (Nat.compare_eq_eq.2 (by omega)).symm
      | exact (Nat.compare_eq_lt.2 (by omega)).symm
      | exact (Nat.compare_eq_gt.2 (by omega)).symm

private theorem compare_infinite_finite {s t : Bool} {n : Nat} {f : Int}
    (hq : (Parts.finite t n f).IsCanonical) :
    (Parts.infinite s).unpacked.compare (Parts.finite t n f).unpacked =
        some (compare (Parts.infinite s).place (Parts.finite t n f).place) ∧
      (Parts.finite t n f).unpacked.compare (Parts.infinite s).unpacked =
        some (compare (Parts.finite t n f).place (Parts.infinite s).place) := by
  have hlt := Parts.magnitude_finite_lt hq
  change (Parts.finite t n f).magnitude < (Parts.infinite s).magnitude at hlt
  rw [compare_place, compare_place]
  generalize (Parts.finite t n f).magnitude = b at *
  generalize (Parts.infinite s).magnitude = a at *
  by_cases hn : n = 0 <;> cases s <;> cases t <;>
    simp only [Parts.unpacked, Parts.isNegative, signOf, hn, ↓reduceDIte, ↓reduceIte,
      Bool.false_eq_true, UnpackedFloat.compare, Option.some.injEq] <;>
    refine ⟨?_, ?_⟩ <;>
    first
      | exact (Nat.compare_eq_gt.2 hlt).symm
      | exact (Nat.compare_eq_lt.2 hlt).symm
      | exact (if_neg (by omega)).symm

theorem Parts.compare_unpacked {p q : Parts} (hp : p.IsCanonical) (hq : q.IsCanonical)
    (hpn : p ≠ .nan) (hqn : q ≠ .nan) :
    p.unpacked.compare q.unpacked = some (compare p.place q.place) := by
  cases p with
  | nan => exact absurd rfl hpn
  | infinite s =>
    cases q with
    | nan => exact absurd rfl hqn
    | infinite t =>
      rw [compare_place]
      cases s <;> cases t <;> rfl
    | finite t n f => exact (compare_infinite_finite hq).1
  | finite s m e =>
    cases q with
    | nan => exact absurd rfl hqn
    | infinite t => exact (compare_infinite_finite hp).2
    | finite t n f => exact compare_finite hp hq

/-! ### The comparisons -/

private theorem compare_toModel {x y : Float} (hx : IsNumber x) (hy : IsNumber y) :
    x.toModel.unpack.compare y.toModel.unpack = some (compare (place x) (place y)) := by
  rw [unpack_toModel, unpack_toModel]
  exact Parts.compare_unpacked (isCanonical_parts x) (isCanonical_parts y) hx hy

private theorem compare_toModel_eq_none {x y : Float} (h : ¬ (IsNumber x ∧ IsNumber y)) :
    x.toModel.unpack.compare y.toModel.unpack = none := by
  rw [unpack_toModel, unpack_toModel]
  by_cases hx : parts x = .nan
  · rw [hx]
    rfl
  · have hy : parts y = .nan := Decidable.byContradiction fun hy ↦ h ⟨hx, hy⟩
    rw [hy]
    cases (parts x).unpacked <;> rfl

theorem lt_iff {x y : Float} : x < y ↔ IsNumber x ∧ IsNumber y ∧ place x < place y := by
  have hdef : x < y ↔ (x.toModel.unpack.compare y.toModel.unpack == some .lt) = true :=
    decide_eq_true_iff
  rw [hdef, beq_iff_eq]
  by_cases h : IsNumber x ∧ IsNumber y
  · rw [compare_toModel h.1 h.2, Option.some.injEq, Int.compare_eq_lt]
    exact ⟨fun hlt ↦ ⟨h.1, h.2, hlt⟩, fun hlt ↦ hlt.2.2⟩
  · rw [compare_toModel_eq_none h]
    exact ⟨fun hnone ↦ by simp at hnone, fun hlt ↦ absurd ⟨hlt.1, hlt.2.1⟩ h⟩

theorem le_iff {x y : Float} : x ≤ y ↔ IsNumber x ∧ IsNumber y ∧ place x ≤ place y := by
  have hdef : x ≤ y ↔ (x.toModel.unpack.compare y.toModel.unpack).any (·.isLE) = true :=
    decide_eq_true_iff
  rw [hdef]
  by_cases h : IsNumber x ∧ IsNumber y
  · rw [compare_toModel h.1 h.2, Option.any_some, Int.isLE_compare]
    exact ⟨fun hle ↦ ⟨h.1, h.2, hle⟩, fun hle ↦ hle.2.2⟩
  · rw [compare_toModel_eq_none h]
    exact ⟨fun hnone ↦ by simp at hnone, fun hle ↦ absurd ⟨hle.1, hle.2.1⟩ h⟩

theorem beq_iff {x y : Float} : (x == y) = true ↔ IsNumber x ∧ IsNumber y ∧ place x = place y := by
  have hdef : (x == y) = (x.toModel.unpack.compare y.toModel.unpack == some .eq) := rfl
  rw [hdef, beq_iff_eq]
  by_cases h : IsNumber x ∧ IsNumber y
  · rw [compare_toModel h.1 h.2, Option.some.injEq, Int.compare_eq_eq]
    exact ⟨fun heq ↦ ⟨h.1, h.2, heq⟩, fun heq ↦ heq.2.2⟩
  · rw [compare_toModel_eq_none h]
    exact ⟨fun hnone ↦ by simp at hnone, fun heq ↦ absurd ⟨heq.1, heq.2.1⟩ h⟩

/-! ### Numbers at one place -/

theorem Parts.eq_of_place_eq {p q : Parts} (hp : p.IsCanonical) (hq : q.IsCanonical)
    (hpn : p ≠ .nan) (hqn : q ≠ .nan) (h : p.place = q.place) (hzero : p.place ≠ 0) : p = q := by
  have hword : p.word = q.word := by
    unfold place at h hzero
    unfold word
    cases hps : p.isNegative <;> cases hqs : q.isNegative <;>
      simp only [hps, hqs, cond_true, cond_false] at h hzero ⊢ <;> omega
  rw [← partsOf_word hp hpn, hword, partsOf_word hq hqn]

/-- Only the two zeros share a place. -/
theorem eq_of_place_eq {x y : Float} (hx : IsNumber x) (hy : IsNumber y) (h : place x = place y)
    (hzero : place x ≠ 0) : x = y :=
  parts_inj hx (Parts.eq_of_place_eq (isCanonical_parts x) (isCanonical_parts y) hx hy h hzero)

theorem zero_lt_iff {x : Float} : 0 < x ↔ IsNumber x ∧ 0 < place x := by
  have hzero : IsNumber 0 ∧ place 0 = 0 := by decide +kernel
  rw [lt_iff, hzero.2]
  exact ⟨fun h ↦ h.2, fun h ↦ ⟨hzero.1, h⟩⟩

theorem le_refl_of_isNumber {x : Float} (hx : IsNumber x) : x ≤ x :=
  le_iff.2 ⟨hx, hx, Int.le_refl _⟩

protected theorem le_trans {x y z : Float} (hxy : x ≤ y) (hyz : y ≤ z) : x ≤ z := by
  obtain ⟨hx, -, hle⟩ := le_iff.1 hxy
  obtain ⟨-, hz, hle'⟩ := le_iff.1 hyz
  exact le_iff.2 ⟨hx, hz, by omega⟩

protected theorem lt_of_lt_of_le {x y z : Float} (hxy : x < y) (hyz : y ≤ z) : x < z := by
  obtain ⟨hx, -, hlt⟩ := lt_iff.1 hxy
  obtain ⟨-, hz, hle⟩ := le_iff.1 hyz
  exact lt_iff.2 ⟨hx, hz, by omega⟩

theorem beq_of_le_of_le {x y : Float} (hxy : x ≤ y) (hyx : y ≤ x) : (x == y) = true := by
  obtain ⟨hx, hy, hplace⟩ := le_iff.1 hxy
  exact beq_iff.2 ⟨hx, hy, Int.le_antisymm hplace (le_iff.1 hyx).2.2⟩

theorem beq_of_not_lt {x y : Float} (hx : IsNumber x) (hy : IsNumber y) (hxy : ¬ x < y)
    (hyx : ¬ y < x) : (x == y) = true := by
  rw [lt_iff] at hxy hyx
  have hle : place y ≤ place x := Int.not_lt.1 fun hlt ↦ hxy ⟨hx, hy, hlt⟩
  have hge : place x ≤ place y := Int.not_lt.1 fun hlt ↦ hyx ⟨hy, hx, hlt⟩
  exact beq_iff.2 ⟨hx, hy, Int.le_antisymm hge hle⟩

theorem le_of_beq {x y : Float} (h : (x == y) = true) : x ≤ y := by
  obtain ⟨hx, hy, hplace⟩ := beq_iff.1 h
  exact le_iff.2 ⟨hx, hy, Int.le_of_eq hplace⟩

theorem not_lt_of_beq {x y z : Float} (h : (x == z) = true) (hy : y ≤ z) : ¬ x < y := by
  intro hlt
  have hplace : place x < place z := (lt_iff.1 (Binary64.lt_of_lt_of_le hlt hy)).2.2
  exact Int.ne_of_lt hplace (beq_iff.1 h).2.2

theorem decide_lt_eq {x y : Float} (hx : IsNumber x) (hy : IsNumber y) :
    decide (x < y) = decide (place x < place y) := by
  apply decide_eq_decide.2
  rw [lt_iff]
  exact ⟨fun h ↦ h.2.2, fun h ↦ ⟨hx, hy, h⟩⟩

theorem beq_eq_decide {x y : Float} (hx : IsNumber x) (hy : IsNumber y) :
    (x == y) = decide (place x = place y) := by
  rw [Bool.eq_iff_iff, beq_iff, decide_eq_true_eq]
  exact ⟨fun h ↦ h.2.2, fun h ↦ ⟨hx, hy, h⟩⟩

theorem le_of_le_of_beq {x y z : Float} (h : x ≤ y) (hzy : (z == y) = true) : x ≤ z := by
  obtain ⟨hx, -, hxy⟩ := le_iff.1 h
  obtain ⟨hz, -, hplace⟩ := beq_iff.1 hzy
  exact le_iff.2 ⟨hx, hz, by omega⟩

theorem beq_comm {x y : Float} (h : (x == y) = true) : (y == x) = true := by
  obtain ⟨hx, hy, hplace⟩ := beq_iff.1 h
  exact beq_iff.2 ⟨hy, hx, hplace.symm⟩

end Ventilation.Binary64
