import Ventilation.Proofs.Number.Value

/-!
# Values and differences

The order of finite numbers is the order of their values, `value?_le_iff`. A difference from a
finite number that is not the smaller one is a number and not negative, whatever rounding does to
it, and so is the sum of two such differences.
-/

set_option autoImplicit false
set_option relaxedAutoImplicit false

namespace Ventilation.Binary64

open Float.Model Float.Model.UnpackedFloat

/-! ### The order of values -/

theorem mul_two_zpow_nonpos_iff {m : ℕ} {e : ℤ} : (m : ℚ) * 2 ^ e ≤ 0 ↔ m = 0 := by
  have hpos : (0 : ℚ) < 2 ^ e := by positivity
  constructor
  · intro h
    have hm : (m : ℚ) ≤ 0 := nonpos_of_mul_nonpos_left h hpos
    exact Nat.le_zero.1 (by exact_mod_cast hm)
  · rintro rfl
    simp

/-- A greater magnitude is a greater value. Exponents decide unless they are equal: the mantissa of
the higher one has its leading bit. -/
theorem Parts.value_lt_of_magnitude_lt {s t : Bool} {m n : ℕ} {e f : ℤ}
    (hp : (Parts.finite s m e).IsCanonical) (hq : (Parts.finite t n f).IsCanonical)
    (h : (Parts.finite s m e).magnitude < (Parts.finite t n f).magnitude) :
    (m : ℚ) * 2 ^ e < n * 2 ^ f := by
  obtain ⟨hm, hle, -, he⟩ := hp
  obtain ⟨hn, hlf, -, hf⟩ := hq
  simp only [Parts.magnitude] at h
  rcases Int.lt_trichotomy e f with hlt | rfl | hlt
  · have hlead : 2 ^ 52 ≤ n := by omega
    have hmq : (m : ℚ) < 2 ^ 53 := by exact_mod_cast hm
    have hnq : (2 : ℚ) ^ 52 ≤ n := by exact_mod_cast hlead
    calc (m : ℚ) * 2 ^ e < 2 ^ 53 * 2 ^ e := mul_lt_mul_of_pos_right hmq (by positivity)
      _ = 2 ^ 52 * 2 ^ (e + 1) := by rw [zpow_add₀ two_ne_zero]; ring
      _ ≤ 2 ^ 52 * 2 ^ f :=
        mul_le_mul_of_nonneg_left (zpow_le_zpow_right₀ one_le_two hlt) (by positivity)
      _ ≤ n * 2 ^ f := mul_le_mul_of_nonneg_right hnq (by positivity)
  · have hmn : (m : ℚ) < n := by exact_mod_cast (by omega : m < n)
    exact mul_lt_mul_of_pos_right hmn (by positivity)
  · omega

theorem Parts.value_le_iff_magnitude_le {s t : Bool} {m n : ℕ} {e f : ℤ}
    (hp : (Parts.finite s m e).IsCanonical) (hq : (Parts.finite t n f).IsCanonical) :
    (m : ℚ) * 2 ^ e ≤ n * 2 ^ f ↔
      (Parts.finite s m e).magnitude ≤ (Parts.finite t n f).magnitude := by
  rcases Nat.lt_trichotomy (Parts.finite s m e).magnitude (Parts.finite t n f).magnitude with
    hlt | heq | hlt
  · exact iff_of_true (value_lt_of_magnitude_lt hp hq hlt).le (Nat.le_of_lt hlt)
  · have hword : (Parts.finite false m e).word = (Parts.finite false n f).word := by
      simp only [Parts.word, Parts.isNegative, signWord, cond_false, Parts.magnitude] at heq ⊢
      rw [heq]
    have hsame : Parts.finite false m e = Parts.finite false n f := by
      rw [← partsOf_word (p := .finite false m e) hp (by simp), hword,
        partsOf_word (p := .finite false n f) hq (by simp)]
    obtain ⟨-, rfl, rfl⟩ := Parts.finite.inj hsame
    exact iff_of_true le_rfl (Nat.le_of_eq heq)
  · exact iff_of_false (not_le.2 (value_lt_of_magnitude_lt hq hp hlt)) (Nat.not_le_of_lt hlt)

/-- Signs turn an order of magnitudes into one of places as they turn one of values. -/
private theorem signed_le_iff {u v : ℚ} {a b : ℕ} (hu : 0 ≤ u) (hv : 0 ≤ v) (huv : u ≤ v ↔ a ≤ b)
    (hvu : v ≤ u ↔ b ≤ a) (hu0 : u ≤ 0 ↔ a = 0) (hv0 : v ≤ 0 ↔ b = 0) (s t : Bool) :
    (bif s then -1 else 1) * u ≤ (bif t then -1 else 1) * v ↔
      (bif s then -(a : ℤ) else a) ≤ bif t then -(b : ℤ) else b := by
  cases s <;> cases t <;> simp only [cond_true, cond_false, one_mul, neg_one_mul]
  · rw [huv]
    omega
  · constructor
    · intro h
      have ha := hu0.1 (by linarith)
      have hb := hv0.1 (by linarith)
      omega
    · intro h
      have ha := hu0.2 (by omega)
      have hb := hv0.2 (by omega)
      linarith
  · exact iff_of_true (by linarith) (by omega)
  · rw [neg_le_neg_iff, hvu]
    omega

theorem Parts.value?_le_iff {p q : Parts} (hp : p.IsCanonical) (hq : q.IsCanonical) {x y : ℚ}
    (hx : p.value? = some x) (hy : q.value? = some y) : x ≤ y ↔ p.place ≤ q.place := by
  cases p with
  | nan => cases hx
  | infinite s => cases hx
  | finite s m e =>
    cases q with
    | nan => cases hy
    | infinite t => cases hy
    | finite t n f =>
      obtain rfl := Option.some.inj hx
      obtain rfl := Option.some.inj hy
      exact signed_le_iff (by positivity) (by positivity) (value_le_iff_magnitude_le hp hq)
        (value_le_iff_magnitude_le hq hp)
        (mul_two_zpow_nonpos_iff.trans (magnitude_finite_eq_zero hp).symm)
        (mul_two_zpow_nonpos_iff.trans (magnitude_finite_eq_zero hq).symm) s t

/-- The order of finite numbers is that of their values. -/
theorem value?_le_iff {x y : Float} {p q : ℚ} (hx : value? x = some p) (hy : value? y = some q) :
    p ≤ q ↔ place x ≤ place y :=
  Parts.value?_le_iff (isCanonical_parts x) (isCanonical_parts y) hx hy

theorem place_zero : place 0 = 0 := by decide +kernel

theorem value?_zero : value? 0 = some 0 := by
  have hparts : parts 0 = .finite false 0 (-1074) := by decide +kernel
  unfold value?
  rw [hparts]
  simp [Parts.value?]

theorem isNumber_of_value? {x : Float} {q : ℚ} (h : value? x = some q) : IsNumber x := by
  intro hnan
  unfold value? at h
  rw [hnan] at h
  cases h

theorem lt_iff_of_value? {x y : Float} {p q : ℚ} (hx : value? x = some p)
    (hy : value? y = some q) : x < y ↔ p < q := by
  rw [lt_iff, ← not_le (a := q), value?_le_iff hy hx, not_le]
  exact ⟨fun h ↦ h.2.2, fun h ↦ ⟨isNumber_of_value? hx, isNumber_of_value? hy, h⟩⟩

theorem beq_self_of_value? {x : Float} {p : ℚ} (hx : value? x = some p) : (x == x) = true :=
  beq_iff.2 ⟨isNumber_of_value? hx, isNumber_of_value? hx, rfl⟩

theorem beq_iff_of_value? {x y : Float} {p q : ℚ} (hx : value? x = some p)
    (hy : value? y = some q) : (x == y) = true ↔ p = q := by
  rw [beq_iff, le_antisymm_iff, ← value?_le_iff hx hy, ← value?_le_iff hy hx, ← le_antisymm_iff]
  exact ⟨fun h ↦ h.2.2, fun h ↦ ⟨isNumber_of_value? hx, isNumber_of_value? hy, h⟩⟩

theorem value?_pos {x : Float} {p : ℚ} (hx : value? x = some p) (h : 0 < x) : 0 < p := by
  rw [← not_le, value?_le_iff hx value?_zero, place_zero]
  have hpos := (zero_lt_iff.1 h).2
  omega

/-! ### Finite numbers -/

/-- The exact value of a number that is finite. -/
def rational (x : Float) : ℚ := (value? x).getD 0

section

variable {x y : Float}

theorem value?_of_isFinite (h : x.isFinite = true) : value? x = some (rational x) := by
  change x.toModel.unpack.isFinite = true at h
  rw [unpack_toModel] at h
  unfold rational value?
  cases hparts : parts x with
  | finite negative mantissa exponent => rfl
  | infinite negative =>
    rw [hparts] at h
    cases h
  | nan =>
    rw [hparts] at h
    cases h

theorem isNumber_of_isFinite (h : x.isFinite = true) : IsNumber x :=
  isNumber_of_value? (value?_of_isFinite h)

theorem place_le_place_iff (hx : x.isFinite = true) (hy : y.isFinite = true) :
    place x ≤ place y ↔ rational x ≤ rational y :=
  (value?_le_iff (value?_of_isFinite hx) (value?_of_isFinite hy)).symm

theorem place_eq_place_iff (hx : x.isFinite = true) (hy : y.isFinite = true) :
    place x = place y ↔ rational x = rational y := by
  rw [le_antisymm_iff, le_antisymm_iff, place_le_place_iff hx hy, place_le_place_iff hy hx]

theorem place_lt_place_iff (hx : x.isFinite = true) (hy : y.isFinite = true) :
    place x < place y ↔ rational x < rational y := by
  rw [← not_le, ← not_le, place_le_place_iff hy hx]

theorem le_iff_rational (hx : x.isFinite = true) (hy : y.isFinite = true) :
    x ≤ y ↔ rational x ≤ rational y := by
  rw [le_iff, place_le_place_iff hx hy]
  exact ⟨fun h ↦ h.2.2, fun h ↦ ⟨isNumber_of_isFinite hx, isNumber_of_isFinite hy, h⟩⟩

theorem rational_nonneg (hx : x.isFinite = true) (h : 0 ≤ x) : 0 ≤ rational x := by
  rw [value?_le_iff value?_zero (value?_of_isFinite hx)]
  exact (le_iff.1 h).2.2

theorem beq_iff_rational (hx : x.isFinite = true) (hy : y.isFinite = true) :
    (x == y) = true ↔ rational x = rational y :=
  beq_iff_of_value? (value?_of_isFinite hx) (value?_of_isFinite hy)

theorem lt_iff_rational (hx : x.isFinite = true) (hy : y.isFinite = true) :
    x < y ↔ rational x < rational y :=
  lt_iff_of_value? (value?_of_isFinite hx) (value?_of_isFinite hy)

end

/-! ### Differences and sums that are not negative -/

/-- Unpacked numbers that are not negative, zeros of either sign among them. -/
def IsUpward : UnpackedFloat → Prop
  | .notANumber => False
  | .infinity s => s = .positive
  | .zero _ => True
  | .finite s _ _ _ => s = .positive

theorem place_pack_nonneg {u : UnpackedFloat} (h : IsUpward u) :
    IsNumber (.ofModel (.pack u)) ∧ 0 ≤ place (.ofModel (.pack u)) := by
  cases u with
  | notANumber => exact h.elim
  | infinity s =>
    obtain rfl : s = .positive := h
    exact ⟨by decide +kernel, by decide +kernel⟩
  | zero s => cases s <;> exact ⟨by decide +kernel, by decide +kernel⟩
  | finite s m e hm =>
    obtain rfl : s = .positive := h
    have hparts := parts_pack_finite false m e hm
    rw [show Sign.positive = signOf false from rfl]
    unfold IsNumber place Parts.place
    generalize parts _ = p at hparts ⊢
    rw [hparts.2]
    exact ⟨hparts.1, Int.natCast_nonneg _⟩

theorem Parts.place_le_magnitude (p : Parts) : p.place ≤ p.magnitude := by
  unfold Parts.place
  cases p.isNegative <;> simp only [cond_true, cond_false] <;> omega

private theorem magnitude_eq_zero_of_place_nonneg {p : Parts} (hsign : p.isNegative = true)
    (h : 0 ≤ p.place) : p.magnitude = 0 := by
  unfold Parts.place at h
  rw [hsign, cond_true] at h
  omega

theorem isUpward_unpacked {p : Parts} (hp : p.IsCanonical) (hn : p ≠ .nan) (h : 0 ≤ p.place) :
    IsUpward p.unpacked := by
  cases p with
  | nan => exact absurd rfl hn
  | infinite s =>
    cases s
    · rfl
    · exact absurd (magnitude_eq_zero_of_place_nonneg rfl h) (by decide)
  | finite s m e =>
    by_cases hm : m = 0
    · simp only [Parts.unpacked, hm, ↓reduceDIte, IsUpward]
    · simp only [Parts.unpacked, hm, ↓reduceDIte, IsUpward]
      cases s
      · rfl
      · have hzero := magnitude_eq_zero_of_place_nonneg rfl h
        exact absurd ((Parts.magnitude_finite_eq_zero hp).1 hzero) hm

theorem isUpward_normalize {m : ℤ} (e : ℤ) (h : 0 ≤ m) :
    IsUpward (UnpackedFloat.normalize .binary64 m e .positive) := by
  unfold UnpackedFloat.normalize
  rcases Int.lt_or_eq_of_le h with hpos | rfl
  · rw [Int.compare_eq_gt.2 hpos]
    simp only [UnpackedFloat.round, roundWithAccuracy]
    split <;> trivial
  · rw [Int.compare_eq_eq.2 rfl]
    trivial

theorem isUpward_add {u v : UnpackedFloat} (hu : IsUpward u) (hv : IsUpward v) :
    IsUpward (u.add .binary64 v) := by
  cases u with
  | notANumber => exact hu.elim
  | infinity s =>
    obtain rfl : s = .positive := hu
    cases v with
    | notANumber => exact hv.elim
    | infinity t =>
      obtain rfl : t = .positive := hv
      rfl
    | zero t => rfl
    | finite t n f hn => rfl
  | zero s =>
    cases v with
    | notANumber => exact hv.elim
    | infinity t => exact hv
    | zero t => cases s <;> cases t <;> trivial
    | finite t n f hn => exact hv
  | finite s m e hm =>
    obtain rfl : s = .positive := hu
    cases v with
    | notANumber => exact hv.elim
    | infinity t => exact hv
    | zero t => rfl
    | finite t n f hn =>
      obtain rfl : t = .positive := hv
      simp only [UnpackedFloat.add, decreaseExponent]
      exact isUpward_normalize _ (Int.add_nonneg (Int.natCast_nonneg _) (Int.natCast_nonneg _))

/-- The signed mantissa at a lower exponent has the same value. -/
theorem apply_shiftLeft_mul (s : Bool) (m : ℕ) {e low : ℤ} (h : low ≤ e) :
    (((signOf s).apply ((m <<< (e - low).toNat : ℕ) : ℤ) : ℤ) : ℚ) * 2 ^ low =
      (bif s then -1 else 1) * (m * 2 ^ e) := by
  have hpow : (2 : ℚ) ^ (e - low).toNat * 2 ^ low = 2 ^ e := by
    rw [← zpow_natCast, ← zpow_add₀ two_ne_zero, Int.toNat_of_nonneg (by omega), sub_add_cancel]
  rw [← hpow, Nat.shiftLeft_eq]
  cases s
  · simp only [signOf, Bool.false_eq_true, if_false, Sign.apply, cond_false]
    push_cast
    ring
  · simp only [signOf, if_true, Sign.apply, cond_true]
    push_cast
    ring

/-- What is not the smaller one of two finite numbers leaves nothing negative. -/
theorem Parts.isUpward_sub_finite {s t : Bool} {m n : ℕ} {e f : ℤ}
    (h : (bif t then -1 else 1) * ((n : ℚ) * 2 ^ f) ≤ (bif s then -1 else 1) * (m * 2 ^ e)) :
    IsUpward ((Parts.finite s m e).unpacked.sub .binary64 (Parts.finite t n f).unpacked) := by
  by_cases hm : m = 0
  · by_cases hn : n = 0
    · simp only [Parts.unpacked, hm, hn, ↓reduceDIte, UnpackedFloat.sub]
      split <;> trivial
    · simp only [Parts.unpacked, hm, hn, ↓reduceDIte, UnpackedFloat.sub]
      cases t
      · rw [hm, Nat.cast_zero, zero_mul, mul_zero, cond_false, one_mul] at h
        exact absurd (mul_two_zpow_nonpos_iff.1 h) hn
      · rfl
  · by_cases hn : n = 0
    · simp only [Parts.unpacked, hm, hn, ↓reduceDIte, UnpackedFloat.sub]
      cases s
      · rfl
      · rw [hn, Nat.cast_zero, zero_mul, mul_zero, cond_true, neg_one_mul, neg_nonneg] at h
        exact absurd (mul_two_zpow_nonpos_iff.1 h) hm
    · simp only [Parts.unpacked, hm, hn, ↓reduceDIte, UnpackedFloat.sub, decreaseExponent]
      apply isUpward_normalize
      rw [← apply_shiftLeft_mul t n (min_le_right e f),
        ← apply_shiftLeft_mul s m (min_le_left e f)] at h
      have hle := le_of_mul_le_mul_right h (by positivity)
      exact Int.sub_nonneg_of_le (by exact_mod_cast hle)

/-- A difference from a finite number that is not the smaller one. -/
theorem isUpward_sub {x y : Float} {a : ℚ} (hx : value? x = some a) (hy : IsNumber y)
    (h : place y ≤ place x) :
    IsUpward ((parts x).unpacked.sub .binary64 (parts y).unpacked) := by
  have hcx := isCanonical_parts x
  have hcy := isCanonical_parts y
  unfold value? at hx
  unfold IsNumber at hy
  unfold place at h
  cases hp : parts x with
  | nan =>
    rw [hp] at hx
    cases hx
  | infinite s =>
    rw [hp] at hx
    cases hx
  | finite s m e =>
    rw [hp] at hcx h hx
    cases hq : parts y with
    | nan => exact absurd hq hy
    | infinite t =>
      cases t
      · rw [hq] at h
        have hlt : (Parts.finite s m e).magnitude < (Parts.infinite false).magnitude :=
          Parts.magnitude_finite_lt hcx
        have hle : (Parts.finite s m e).place ≤ (Parts.finite s m e).magnitude :=
          Parts.place_le_magnitude _
        have hinfinite : (Parts.infinite false).place = (Parts.infinite false).magnitude := rfl
        omega
      · by_cases hm : m = 0
        · simp only [Parts.unpacked, hm, ↓reduceDIte]
          rfl
        · simp only [Parts.unpacked, hm, ↓reduceDIte]
          rfl
    | finite t n f =>
      rw [hq] at hcy h
      exact Parts.isUpward_sub_finite ((Parts.value?_le_iff hcy hcx rfl rfl).2 h)

/-- A finite number less one that it is not below is a number and not negative. -/
theorem place_sub_nonneg {x y : Float} {a : ℚ} (hx : value? x = some a) (h : y ≤ x) :
    IsNumber (x - y) ∧ 0 ≤ place (x - y) := by
  obtain ⟨hy, -, hplace⟩ := le_iff.1 h
  have hsub : x - y = .ofModel (.pack ((parts x).unpacked.sub .binary64 (parts y).unpacked)) := by
    rw [← unpack_toModel, ← unpack_toModel]
    rfl
  rw [hsub]
  exact place_pack_nonneg (isUpward_sub hx hy hplace)

end Ventilation.Binary64
