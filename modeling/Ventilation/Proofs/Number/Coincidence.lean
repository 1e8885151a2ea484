import Ventilation.Number.Elementary
import Ventilation.Number.Scalar
import Ventilation.Proofs.Number.Nonneg

/-!
# Numbers that coincide

Two numbers coincide if they are the same or compare equal; the second brings in no more than the
two zeros. Comparisons cannot tell numbers apart that coincide, and every operation takes them to
results that coincide again. Only a division by zero would tell the zeros apart.
-/

set_option autoImplicit false
set_option relaxedAutoImplicit false

namespace Ventilation.Binary64

open Float.Model Float.Model.UnpackedFloat

/-- The same number, or numbers that compare equal. -/
def Coincide (x y : Float) : Prop := x = y ∨ (x == y) = true

variable {x x' y y' : Float}

/-! ### Comparisons -/

namespace Coincide

theorem refl (x : Float) : Coincide x x := .inl rfl

theorem isNumber_iff (h : Coincide x y) : IsNumber x ↔ IsNumber y := by
  rcases h with rfl | h
  · rfl
  · exact iff_of_true (beq_iff.1 h).1 (beq_iff.1 h).2.1

theorem place_eq (h : Coincide x y) : place x = place y := by
  rcases h with rfl | h
  · rfl
  · exact (beq_iff.1 h).2.2

theorem lt_iff_lt (hx : Coincide x x') (hy : Coincide y y') : x < y ↔ x' < y' := by
  rw [lt_iff, lt_iff, hx.isNumber_iff, hy.isNumber_iff, hx.place_eq, hy.place_eq]

theorem le_iff_le (hx : Coincide x x') (hy : Coincide y y') : x ≤ y ↔ x' ≤ y' := by
  rw [le_iff, le_iff, hx.isNumber_iff, hy.isNumber_iff, hx.place_eq, hy.place_eq]

theorem beq_eq_beq (hx : Coincide x x') (hy : Coincide y y') : (x == y) = (x' == y') := by
  rw [Bool.eq_iff_iff, beq_iff, beq_iff, hx.isNumber_iff, hy.isNumber_iff, hx.place_eq,
    hy.place_eq]

/-- Numbers that coincide without being the same are the two zeros. -/
theorem eq_or_zero (h : Coincide x y) : x = y ∨ (x == 0) = true ∧ (y == 0) = true := by
  rcases h with rfl | h
  · exact .inl rfl
  · have hzero : IsNumber 0 ∧ place 0 = 0 := by decide +kernel
    obtain ⟨hx, hy, hplace⟩ := beq_iff.1 h
    by_cases hx0 : place x = 0
    · exact .inr ⟨beq_iff.2 ⟨hx, hzero.1, hx0.trans hzero.2.symm⟩,
        beq_iff.2 ⟨hy, hzero.1, (hplace.symm.trans hx0).trans hzero.2.symm⟩⟩
    · exact .inl (eq_of_place_eq hx hy hplace hx0)

theorem eq_of_ne_zero (h : Coincide x y) (hx : (x == 0) = false) : x = y := by
  rcases h.eq_or_zero with h | ⟨hzero, -⟩
  · exact h
  · rw [hx] at hzero
    cases hzero

theorem eq_of_not_le_zero (h : Coincide x y) (hx : ¬ x ≤ 0) : x = y := by
  apply h.eq_of_ne_zero
  rw [Bool.eq_false_iff]
  intro hzero
  obtain ⟨hnumber, hnumber', hplace⟩ := beq_iff.1 hzero
  exact hx (le_iff.2 ⟨hnumber, hnumber', hplace.le⟩)

theorem ite {p q : Prop} [Decidable p] [Decidable q] (hpq : p ↔ q) (hx : Coincide x x')
    (hy : Coincide y y') : Coincide (if p then x else y) (if q then x' else y') := by
  by_cases hp : p
  · rwa [if_pos hp, if_pos (hpq.1 hp)]
  · rwa [if_neg hp, if_neg (hpq.not.1 hp)]

end Coincide

/-! ### Unpacked numbers -/

/-- The same unpacked number, or two zeros. -/
inductive SameUnpacked : UnpackedFloat → UnpackedFloat → Prop
  | refl (u : UnpackedFloat) : SameUnpacked u u
  | zero (s t : Sign) : SameUnpacked (.zero s) (.zero t)

theorem Parts.magnitude_eq_zero_of_place {p : Parts} (h : p.place = 0) : p.magnitude = 0 := by
  unfold Parts.place at h
  generalize p.magnitude = magnitude at h ⊢
  cases hsign : p.isNegative
  · rw [hsign, cond_false] at h
    exact Int.natCast_eq_zero.1 h
  · rw [hsign, cond_true, Int.neg_eq_zero] at h
    exact Int.natCast_eq_zero.1 h

theorem exists_parts_of_zero (h : (x == 0) = true) :
    ∃ negative exponent, parts x = .finite negative 0 exponent := by
  obtain ⟨hx, -, hplace⟩ := beq_iff.1 h
  have hcanonical := isCanonical_parts x
  have hmagnitude : (parts x).magnitude = 0 :=
    Parts.magnitude_eq_zero_of_place (hplace.trans (by decide +kernel))
  unfold IsNumber at hx
  cases hparts : parts x with
  | nan => exact absurd hparts hx
  | infinite negative =>
    rw [hparts] at hmagnitude
    cases negative <;> exact absurd hmagnitude (by decide)
  | finite negative mantissa exponent =>
    rw [hparts] at hcanonical hmagnitude
    rw [(Parts.magnitude_finite_eq_zero hcanonical).1 hmagnitude]
    exact ⟨negative, exponent, rfl⟩

theorem exists_unpack_of_zero (h : (x == 0) = true) : ∃ s, x.toModel.unpack = .zero s := by
  obtain ⟨negative, exponent, hparts⟩ := exists_parts_of_zero h
  refine ⟨signOf negative, ?_⟩
  rw [unpack_toModel, hparts]
  rfl

theorem sameUnpacked_of_coincide (h : Coincide x y) :
    SameUnpacked x.toModel.unpack y.toModel.unpack := by
  rcases h.eq_or_zero with rfl | ⟨hx, hy⟩
  · exact .refl _
  · obtain ⟨s, hs⟩ := exists_unpack_of_zero hx
    obtain ⟨t, ht⟩ := exists_unpack_of_zero hy
    rw [hs, ht]
    exact .zero s t

theorem coincide_of_sameUnpacked {u v : UnpackedFloat} (h : SameUnpacked u v) :
    Coincide (.ofModel (.pack u)) (.ofModel (.pack v)) := by
  cases h with
  | refl u => exact .refl _
  | zero s t => cases s <;> cases t <;> exact .inr (by decide +kernel)

namespace SameUnpacked

variable {u u' v v' : UnpackedFloat}

theorem trans {w : UnpackedFloat} (h : SameUnpacked u v) (h' : SameUnpacked v w) :
    SameUnpacked u w := by
  cases h with
  | refl u => exact h'
  | zero s t =>
    cases h' with
    | refl v => exact .zero s t
    | zero t r => exact .zero s r

/-- An operation in which the sign of a zero does not matter on either side. -/
theorem congr₂ {op : UnpackedFloat → UnpackedFloat → UnpackedFloat}
    (hleft : ∀ s t v, SameUnpacked (op (.zero s) v) (op (.zero t) v))
    (hright : ∀ u s t, SameUnpacked (op u (.zero s)) (op u (.zero t)))
    (hu : SameUnpacked u u') (hv : SameUnpacked v v') : SameUnpacked (op u v) (op u' v') := by
  have hfirst : SameUnpacked (op u v) (op u' v) := by
    cases hu with
    | refl u => exact .refl _
    | zero s t => exact hleft s t v
  refine hfirst.trans ?_
  cases hv with
  | refl v => exact .refl _
  | zero s t => exact hright u' s t

theorem add : SameUnpacked u u' → SameUnpacked v v' →
    SameUnpacked (u.add .binary64 v) (u'.add .binary64 v') := by
  refine congr₂ (fun s t v ↦ ?_) fun u s t ↦ ?_
  · cases v with
    | zero r => cases r <;> cases s <;> cases t <;> exact .zero _ _
    | notANumber | infinity r | finite r m e hm => exact .refl _
  · cases u with
    | zero r => cases r <;> cases s <;> cases t <;> exact .zero _ _
    | notANumber | infinity r | finite r m e hm => exact .refl _

theorem sub : SameUnpacked u u' → SameUnpacked v v' →
    SameUnpacked (u.sub .binary64 v) (u'.sub .binary64 v') := by
  refine congr₂ (fun s t v ↦ ?_) fun u s t ↦ ?_
  · cases v with
    | zero r => cases r <;> cases s <;> cases t <;> exact .zero _ _
    | notANumber | infinity r | finite r m e hm => exact .refl _
  · cases u with
    | zero r => cases r <;> cases s <;> cases t <;> exact .zero _ _
    | notANumber | infinity r | finite r m e hm => exact .refl _

theorem mul : SameUnpacked u u' → SameUnpacked v v' →
    SameUnpacked (u.mul .binary64 v) (u'.mul .binary64 v') := by
  refine congr₂ (fun s t v ↦ ?_) fun u s t ↦ ?_
  · cases v with
    | notANumber | infinity r => exact .refl _
    | zero r | finite r m e hm => exact .zero _ _
  · cases u with
    | notANumber | infinity r => exact .refl _
    | zero r | finite r m e hm => exact .zero _ _

/-- The divisor stays the same: a quotient by a zero has the sign of that. -/
theorem div (hu : SameUnpacked u u') (v : UnpackedFloat) :
    SameUnpacked (u.div .binary64 v) (u'.div .binary64 v) := by
  cases hu with
  | refl u => exact .refl _
  | zero s t =>
    cases v with
    | notANumber | zero r => exact .refl _
    | infinity r | finite r m e hm => exact .zero _ _

theorem neg (hu : SameUnpacked u u') : SameUnpacked u.neg u'.neg := by
  cases hu with
  | refl u => exact .refl _
  | zero s t => exact .zero _ _

theorem abs (hu : SameUnpacked u u') : SameUnpacked u.abs u'.abs := by
  cases hu with
  | refl u => exact .refl _
  | zero s t => exact .zero _ _

theorem sqrt (hu : SameUnpacked u u') :
    SameUnpacked (u.sqrt .binary64) (u'.sqrt .binary64) := by
  cases hu with
  | refl u => exact .refl _
  | zero s t => exact .zero _ _

theorem isFinite_eq (hu : SameUnpacked u u') : u.isFinite = u'.isFinite := by
  cases hu <;> rfl

theorem isNaN_eq (hu : SameUnpacked u u') : u.isNaN = u'.isNaN := by
  cases hu <;> rfl

end SameUnpacked

/-! ### Operations -/

namespace Coincide

theorem add (hx : Coincide x x') (hy : Coincide y y') : Coincide (x + y) (x' + y') :=
  coincide_of_sameUnpacked ((sameUnpacked_of_coincide hx).add (sameUnpacked_of_coincide hy))

theorem sub (hx : Coincide x x') (hy : Coincide y y') : Coincide (x - y) (x' - y') :=
  coincide_of_sameUnpacked ((sameUnpacked_of_coincide hx).sub (sameUnpacked_of_coincide hy))

theorem mul (hx : Coincide x x') (hy : Coincide y y') : Coincide (x * y) (x' * y') :=
  coincide_of_sameUnpacked ((sameUnpacked_of_coincide hx).mul (sameUnpacked_of_coincide hy))

theorem div (hx : Coincide x x') (y : Float) : Coincide (x / y) (x' / y) :=
  coincide_of_sameUnpacked ((sameUnpacked_of_coincide hx).div _)

theorem div_of_ne_zero (hx : Coincide x x') (hy : Coincide y y') (hne : (y == 0) = false) :
    Coincide (x / y) (x' / y') := by
  obtain rfl := hy.eq_of_ne_zero hne
  exact hx.div y

theorem neg (hx : Coincide x x') : Coincide (-x) (-x') :=
  coincide_of_sameUnpacked (sameUnpacked_of_coincide hx).neg

theorem abs (hx : Coincide x x') : Coincide x.abs x'.abs :=
  coincide_of_sameUnpacked (sameUnpacked_of_coincide hx).abs

theorem sqrt (hx : Coincide x x') : Coincide x.sqrt x'.sqrt :=
  coincide_of_sameUnpacked (sameUnpacked_of_coincide hx).sqrt

theorem isFinite_eq (hx : Coincide x x') : x.isFinite = x'.isFinite :=
  (sameUnpacked_of_coincide hx).isFinite_eq

theorem isNaN_eq (hx : Coincide x x') : x.isNaN = x'.isNaN :=
  (sameUnpacked_of_coincide hx).isNaN_eq

end Coincide

/-! ### Whole parts -/

theorem toWhole_of_zero (direction : Direction) (h : (x == 0) = true) :
    toWhole direction x = x := by
  obtain ⟨negative, exponent, hparts⟩ := exists_parts_of_zero h
  have hvalue : value? x = some ((0 : ℕ) : ℚ) := by
    rw [value?_of_parts hparts fun _ ↦ rfl, Nat.cast_zero, zero_mul]
  exact toWhole_of_value? direction hvalue

theorem toIntWithin_of_zero (low high : ℤ) (h : (x == 0) = true) :
    toIntWithin low high x = max low (min high 0) := by
  obtain ⟨negative, exponent, hparts⟩ := exists_parts_of_zero h
  unfold toIntWithin
  rw [hparts]
  simp only [Nat.zero_mul, Nat.zero_div, Nat.cast_zero, neg_zero, ite_self]

namespace Coincide

theorem toWhole (direction : Direction) (hx : Coincide x x') :
    Coincide (toWhole direction x) (toWhole direction x') := by
  rcases hx.eq_or_zero with rfl | ⟨hzero, hzero'⟩
  · exact .refl _
  · rw [toWhole_of_zero direction hzero, toWhole_of_zero direction hzero']
    exact hx

theorem toIntWithin_eq (low high : ℤ) (hx : Coincide x x') :
    toIntWithin low high x = toIntWithin low high x' := by
  rcases hx.eq_or_zero with rfl | ⟨hzero, hzero'⟩
  · rfl
  · rw [toIntWithin_of_zero low high hzero, toIntWithin_of_zero low high hzero']

theorem fract (hx : Coincide x x') : Coincide (fract x) (fract x') :=
  hx.sub (hx.toWhole .towardZero)

theorem larger (hx : Coincide x x') (hy : Coincide y y') :
    Coincide (Scalar.larger x y) (Scalar.larger x' y') :=
  .ite (Bool.eq_iff_iff.1 (hx.beq_eq_beq hx)) (.ite (hx.lt_iff_lt hy) hy hx) hy

theorem smaller (hx : Coincide x x') (hy : Coincide y y') :
    Coincide (Scalar.smaller x y) (Scalar.smaller x' y') :=
  .ite (Bool.eq_iff_iff.1 (hx.beq_eq_beq hx)) (.ite (hy.lt_iff_lt hx) hy hx) hy

theorem roundHalfEven (hx : Coincide x x') :
    Coincide (Scalar.roundHalfEven x) (Scalar.roundHalfEven x') := by
  have hbelow := hx.toWhole .down
  have hrest := hx.sub hbelow
  have hup := hbelow.add (.refl (Scalar.ofNat 1))
  have hpairs := (hbelow.div (Scalar.ofNat 2)).toWhole .towardZero
  have hunpaired : Coincide (Scalar.unpaired (floor x)) (Scalar.unpaired (floor x')) :=
    hbelow.sub ((Coincide.refl (Scalar.ofNat 2)).mul hpairs)
  exact .ite ((Coincide.refl _).lt_iff_lt hrest) hup (.ite (hrest.lt_iff_lt (.refl _)) hbelow
    (.ite (Bool.eq_iff_iff.1 (hunpaired.beq_eq_beq (.refl _))) hbelow hup))

end Coincide

/-! ### Elementary functions -/

namespace Coincide

/-- A function with one value for both zeros, or with the zeros as values, keeps coincidence. -/
theorem of_zero_cases {f g : Float → Float} (hg : ∀ x y, Coincide x y → (x == 0) = true →
    (y == 0) = true → Coincide (g x) (g y)) (hx : Coincide x x') :
    Coincide (if x == 0 then g x else f x) (if x' == 0 then g x' else f x') := by
  rcases hx.eq_or_zero with rfl | ⟨hzero, hzero'⟩
  · exact .refl _
  · rw [if_pos hzero, if_pos hzero']
    exact hg x x' hx hzero hzero'

theorem sin (hx : Coincide x x') : Coincide (Binary64.sin x) (Binary64.sin x') :=
  of_zero_cases (fun _ _ h _ _ ↦ h) hx

theorem tan (hx : Coincide x x') : Coincide (Binary64.tan x) (Binary64.tan x') :=
  of_zero_cases (fun _ _ h _ _ ↦ h) hx

theorem cos (hx : Coincide x x') : Coincide (Binary64.cos x) (Binary64.cos x') :=
  of_zero_cases (fun _ _ _ _ _ ↦ .refl 1) hx

theorem exp (hx : Coincide x x') : Coincide (Binary64.exp x) (Binary64.exp x') :=
  of_zero_cases (fun _ _ _ _ _ ↦ .refl 1) hx

/-- A zero with a negative power aside, which would be infinite. -/
theorem pow (hx : Coincide x x') (hy : Coincide y y') (h : (x == 0 && y < 0) = false) :
    Coincide (Binary64.pow x y) (Binary64.pow x' y') := by
  unfold Binary64.pow
  rcases hy.eq_or_zero with rfl | ⟨hzero, hzero'⟩
  · rcases hx.eq_or_zero with rfl | ⟨hzero, hzero'⟩
    · exact .refl _
    · have hexponent : ¬ y < 0 := by
        rw [hzero, Bool.true_and, decide_eq_false_iff_not] at h
        exact h
      rw [if_pos hzero, if_pos hzero', if_neg hexponent, if_neg hexponent]
      exact .ite Iff.rfl (.refl 1) (.ite Iff.rfl hx (.refl _))
  · rw [if_pos hzero, if_pos hzero']
    exact .refl 1

end Coincide

end Ventilation.Binary64
