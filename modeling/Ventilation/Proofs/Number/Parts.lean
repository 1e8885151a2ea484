import Mathlib
import Ventilation.Number.Scalar

/-!
A binary64 number and its parts determine each other. `unpack_toModel` reads the parts as the
arithmetic of numbers does, `parts_ofParts` and `ofParts_parts` are the two directions between a
number and its parts, and `parts_ofModel_pack` reads the result of an operation.
-/

set_option autoImplicit false
set_option relaxedAutoImplicit false

namespace Ventilation.Binary64

open Float.Model Float.Model.UnpackedFloat

/-! ### Parts of a word -/

/-- The parts of the number that a word holds. -/
def partsOf (word : Nat) : Parts :=
  if word / 2 ^ 52 % 2 ^ 11 = 2047 then
    if word % 2 ^ 52 = 0 then .infinite (decide (2 ^ 63 ≤ word)) else .nan
  else if word / 2 ^ 52 % 2 ^ 11 = 0 then
    .finite (decide (2 ^ 63 ≤ word)) (word % 2 ^ 52) (-1074)
  else
    .finite (decide (2 ^ 63 ≤ word)) (2 ^ 52 + word % 2 ^ 52)
      (((word / 2 ^ 52 % 2 ^ 11 : Nat) : Int) - 1075)

theorem parts_eq (x : Float) : parts x = partsOf x.toBits.toNat := rfl

/-- The parts that a number can have. -/
def Parts.IsCanonical : Parts → Prop
  | .finite _ mantissa exponent =>
    mantissa < 2 ^ 53 ∧ -1074 ≤ exponent ∧ exponent ≤ 971 ∧ (2 ^ 52 ≤ mantissa ∨ exponent = -1074)
  | _ => True

theorem isCanonical_partsOf (word : Nat) : (partsOf word).IsCanonical := by
  unfold partsOf
  have hfield : word / 2 ^ 52 % 2 ^ 11 < 2 ^ 11 := Nat.mod_lt _ (by decide)
  have hfraction : word % 2 ^ 52 < 2 ^ 52 := Nat.mod_lt _ (by decide)
  generalize word / 2 ^ 52 % 2 ^ 11 = field at *
  generalize word % 2 ^ 52 = fraction at *
  split
  · split <;> trivial
  · split
    · exact ⟨by omega, by omega, by omega, .inr rfl⟩
    · exact ⟨by omega, by omega, by omega, .inl (by omega)⟩

theorem isCanonical_parts (x : Float) : (parts x).IsCanonical := isCanonical_partsOf _

def Parts.isNegative : Parts → Bool
  | .nan => false
  | .infinite negative => negative
  | .finite negative _ _ => negative

/-- The word of a number without its sign. -/
def Parts.magnitude : Parts → Nat
  | .nan => 0
  | .infinite _ => 2047 * 2 ^ 52
  | .finite _ mantissa exponent => (exponent + 1074).toNat * 2 ^ 52 + mantissa

/-- The sign in the word of a number. -/
def signWord (negative : Bool) : Nat := bif negative then 2 ^ 63 else 0

/-- The word that holds a number. -/
def Parts.word (p : Parts) : Nat := p.magnitude + signWord p.isNegative

theorem Parts.magnitude_le {p : Parts} (hp : p.IsCanonical) : p.magnitude ≤ 2047 * 2 ^ 52 := by
  cases p with
  | nan => exact Nat.zero_le _
  | infinite negative => exact Nat.le_refl _
  | finite negative mantissa exponent =>
    obtain ⟨hm, hle, hge, -⟩ := hp
    simp only [magnitude]
    omega

/-- Just the numbers of magnitude below infinity are finite. -/
theorem Parts.magnitude_finite_lt {negative : Bool} {mantissa : Nat} {exponent : Int}
    (hp : (Parts.finite negative mantissa exponent).IsCanonical) :
    (Parts.finite negative mantissa exponent).magnitude < 2047 * 2 ^ 52 := by
  obtain ⟨hm, hle, hge, -⟩ := hp
  simp only [magnitude]
  omega

theorem Parts.word_lt {p : Parts} (hp : p.IsCanonical) : p.word < 2 ^ 64 := by
  have hle := p.magnitude_le hp
  have hsign : signWord p.isNegative ≤ 2 ^ 63 := by
    cases p.isNegative <;> decide
  unfold Parts.word
  omega

theorem partsOf_word {p : Parts} (hp : p.IsCanonical) (hn : p ≠ .nan) : partsOf p.word = p := by
  have hle := p.magnitude_le hp
  have hsign : decide (2 ^ 63 ≤ p.word) = p.isNegative := by
    cases hneg : p.isNegative
    · have hlow : ¬ 2 ^ 63 ≤ p.word := by
        simp only [Parts.word, hneg, signWord, cond_false]
        omega
      exact decide_eq_false hlow
    · have hhigh : 2 ^ 63 ≤ p.word := by
        simp only [Parts.word, hneg, signWord, cond_true]
        omega
      exact decide_eq_true hhigh
  have hfield : p.word / 2 ^ 52 % 2 ^ 11 = p.magnitude / 2 ^ 52 := by
    unfold Parts.word
    cases p.isNegative <;> simp only [signWord, cond_true, cond_false] <;> omega
  have hfraction : p.word % 2 ^ 52 = p.magnitude % 2 ^ 52 := by
    unfold Parts.word
    cases p.isNegative <;> simp only [signWord, cond_true, cond_false] <;> omega
  unfold partsOf
  rw [hsign, hfield, hfraction]
  cases p with
  | nan => exact absurd rfl hn
  | infinite negative =>
    have hinf : (Parts.infinite negative).magnitude / 2 ^ 52 = 2047 ∧
        (Parts.infinite negative).magnitude % 2 ^ 52 = 0 := by
      simp only [Parts.magnitude]
      decide
    rw [if_pos hinf.1, if_pos hinf.2]
    rfl
  | finite negative mantissa exponent =>
    obtain ⟨hm, hlow, hhigh, hnormal⟩ := hp
    have hquotient : (Parts.finite negative mantissa exponent).magnitude / 2 ^ 52 =
        (exponent + 1074).toNat + mantissa / 2 ^ 52 := by
      simp only [Parts.magnitude]
      omega
    have hrest : (Parts.finite negative mantissa exponent).magnitude % 2 ^ 52 =
        mantissa % 2 ^ 52 := by
      simp only [Parts.magnitude]
      omega
    rw [hquotient, hrest, if_neg (by omega)]
    by_cases hsub : mantissa < 2 ^ 52
    · rw [if_pos (by omega)]
      congr 1 <;> omega
    · rw [if_neg (by omega)]
      congr 1 <;> omega

theorem word_partsOf {word : Nat} (hlt : word < 2 ^ 64) (hn : partsOf word ≠ .nan) :
    (partsOf word).word = word := by
  have hsign : signWord (decide (2 ^ 63 ≤ word)) = word / 2 ^ 63 * 2 ^ 63 := by
    by_cases hs : 2 ^ 63 ≤ word
    · rw [decide_eq_true hs]
      simp only [signWord, cond_true]
      omega
    · rw [decide_eq_false hs]
      simp only [signWord, cond_false]
      omega
  unfold partsOf at hn ⊢
  split
  · split
    · simp only [Parts.word, Parts.magnitude, Parts.isNegative, hsign]
      omega
    · simp_all
  · split
    · simp only [Parts.word, Parts.magnitude, Parts.isNegative, hsign]
      omega
    · simp only [Parts.word, Parts.magnitude, Parts.isNegative, hsign]
      omega

theorem toBits_inj {x y : Float} (h : x.toBits.toNat = y.toBits.toNat) : x = y := by
  obtain ⟨⟨a, ha⟩⟩ := x
  obtain ⟨⟨b, hb⟩⟩ := y
  have hab : a = b := UInt64.toNat_inj.1 h
  subst hab
  rfl

/-- A number is determined by its parts. -/
theorem parts_inj {x y : Float} (hn : parts x ≠ .nan) (h : parts x = parts y) : x = y := by
  apply toBits_inj
  have hy : parts y ≠ .nan := fun hy ↦ hn (h.trans hy)
  calc x.toBits.toNat = (parts x).word := (word_partsOf x.toBits.toNat_lt hn).symm
    _ = (parts y).word := congrArg Parts.word h
    _ = y.toBits.toNat := word_partsOf y.toBits.toNat_lt hy

/-! ### Unpacked numbers -/

/-- The sign of an unpacked number. -/
def signOf (negative : Bool) : Sign := if negative then .negative else .positive

/-- The parts as the arithmetic of numbers takes them. -/
def Parts.unpacked : Parts → UnpackedFloat
  | .nan => .notANumber
  | .infinite negative => .infinity (signOf negative)
  | .finite negative mantissa exponent =>
    if h : mantissa = 0 then .zero (signOf negative)
    else .finite (signOf negative) mantissa exponent (Nat.pos_of_ne_zero h)

private theorem sign_unpackSign (b : BitVec 64) :
    Sign.ofBitVec (@unpackSign .binary64 b) =
      signOf (decide (2 ^ 63 ≤ b.toNat)) := by
  have hlt := b.isLt
  have htop : (@unpackSign .binary64 b).toNat = b.toNat / 2 ^ 63 := by
    simp [unpackSign, Nat.shiftRight_eq_div_pow]
    omega
  by_cases hs : 2 ^ 63 ≤ b.toNat
  · have hone : @unpackSign .binary64 b ≠ 0#1 := by
      intro hzero
      rw [hzero] at htop
      change 0 = b.toNat / 2 ^ 63 at htop
      omega
    rw [decide_eq_true hs, Sign.ofBitVec, if_neg hone]
    rfl
  · have hzero : @unpackSign .binary64 b = 0#1 := by
      apply BitVec.eq_of_toNat_eq
      rw [htop]
      change b.toNat / 2 ^ 63 = 0
      omega
    rw [decide_eq_false hs, Sign.ofBitVec, if_pos hzero]
    rfl

theorem unpack_eq (b : BitVec 64) :
    UnpackedFloat.unpack Format.binary64 b = (partsOf b.toNat).unpacked := by
  have hm : (@unpackMantissa .binary64 b).toNat = b.toNat % 2 ^ 52 := by
    simp [unpackMantissa]
  have he : (@unpackExponent .binary64 b).toNat = b.toNat / 2 ^ 52 % 2 ^ 11 := by
    simp [unpackExponent, Nat.shiftRight_eq_div_pow]
  have hbias : ((Format.binary64.exponentBias : Nat) : Int) = 1023 := rfl
  have hones : (@unpackExponent .binary64 b = -1#11) ↔
      b.toNat / 2 ^ 52 % 2 ^ 11 = 2047 := by
    rw [← he, ← BitVec.toNat_inj]
    simp
  have hzero : (@unpackExponent .binary64 b = 0#11) ↔
      b.toNat / 2 ^ 52 % 2 ^ 11 = 0 := by
    rw [← he, ← BitVec.toNat_inj]
    simp
  have hfraction : (@unpackMantissa .binary64 b = 0#52) ↔
      b.toNat % 2 ^ 52 = 0 := by
    rw [← hm, ← BitVec.toNat_inj]
    simp
  have happend : (1#1 ++ @unpackMantissa .binary64 b).toNat =
      2 ^ 52 + b.toNat % 2 ^ 52 := by
    rw [← hm, BitVec.toNat_append,
      ← Nat.shiftLeft_add_eq_or_of_lt (@unpackMantissa .binary64 b).isLt,
      Nat.shiftLeft_eq]
    simp
  unfold UnpackedFloat.unpack partsOf
  simp only [hones, hzero, hfraction, happend, sign_unpackSign, hm, he, hbias]
  by_cases h1 : b.toNat / 2 ^ 52 % 2 ^ 11 = 2047
  · rw [if_pos h1, if_pos h1]
    by_cases h2 : b.toNat % 2 ^ 52 = 0
    · rw [if_pos h2, if_pos h2]
      rfl
    · rw [if_neg h2, if_neg h2]
      rfl
  · rw [if_neg h1, if_neg h1]
    by_cases h3 : b.toNat / 2 ^ 52 % 2 ^ 11 = 0
    · rw [if_pos h3, if_pos h3]
      by_cases h4 : b.toNat % 2 ^ 52 = 0
      · rw [dif_pos h4]
        simp only [Parts.unpacked, h4, ↓reduceDIte]
      · rw [dif_neg h4]
        simp only [Parts.unpacked, h4, ↓reduceDIte, h3]
        congr 1
    · rw [if_neg h3, if_neg h3]
      have hpos : ¬ 2 ^ 52 + b.toNat % 2 ^ 52 = 0 := by omega
      simp only [Parts.unpacked, hpos, ↓reduceDIte]
      congr 1

theorem unpack_toModel (x : Float) : x.toModel.unpack = (parts x).unpacked :=
  unpack_eq x.toModel.toBits.toBitVec

private theorem toNat_packComponents (s : Sign) (e : BitVec 11) (m : BitVec 52) :
    (packComponents Format.binary64 s e m).toNat =
      s.toBitVec.toNat * 2 ^ 63 + e.toNat * 2 ^ 52 + m.toNat := by
  have happend : (packComponents Format.binary64 s e m).toNat =
      (s.toBitVec.toNat <<< 11 ||| e.toNat) <<< 52 ||| m.toNat := rfl
  rw [happend, ← Nat.shiftLeft_add_eq_or_of_lt e.isLt, ← Nat.shiftLeft_add_eq_or_of_lt m.isLt,
    Nat.shiftLeft_eq, Nat.shiftLeft_eq]
  omega

private theorem toNat_signOf (negative : Bool) :
    (signOf negative).toBitVec.toNat * 2 ^ 63 = signWord negative := by
  cases negative <;> rfl

theorem toNat_pack_unpacked {p : Parts} (hp : p.IsCanonical) (hn : p ≠ .nan) :
    (UnpackedFloat.pack Format.binary64 p.unpacked).toNat = p.word := by
  cases p with
  | nan => exact absurd rfl hn
  | infinite negative => cases negative <;> rfl
  | finite negative mantissa exponent =>
    obtain ⟨hm, hle, hge, hnormal⟩ := hp
    by_cases h0 : mantissa = 0
    · have he : exponent = -1074 := by omega
      subst h0 he
      cases negative <;> rfl
    · have hbias : (exponent + (Format.binary64.exponentBias : Int) +
          (Format.binary64.mantissaBitsWithoutImplicit : Int)).toNat = (exponent + 1075).toNat := by
        change (exponent + 1023 + 52).toNat = _
        omega
      have hbits : Format.binary64.mantissaBits = 53 := rfl
      have hfits : ¬ (exponent + 1075).toNat > 2046 := by omega
      simp only [Parts.unpacked, h0, ↓reduceDIte, UnpackedFloat.pack, hbias, hbits, Parts.word,
        Parts.magnitude, Parts.isNegative]
      rw [if_neg (by omega)]
      by_cases hn : 2 ^ 52 ≤ mantissa
      · have hlog : mantissa.log2 = 52 := (Nat.log2_eq_iff h0).2 ⟨hn, hm⟩
        rw [if_pos (by omega), toNat_packComponents, toNat_signOf]
        simp only [BitVec.toNat_ofNat]
        omega
      · have hlog : ¬ mantissa.log2 + 1 = 53 := by
          have := (Nat.log2_lt h0).2 (by omega : mantissa < 2 ^ 52)
          omega
        rw [if_neg hlog, toNat_packComponents, toNat_signOf]
        simp only [BitVec.toNat_ofNat]
        omega

/-- The parts of a packed number are those that were packed. -/
theorem parts_ofModel_pack {p : Parts} (hp : p.IsCanonical) :
    parts (.ofModel (.pack p.unpacked)) = p := by
  by_cases hn : p = .nan
  · subst hn
    decide +kernel
  · rw [parts_eq]
    change partsOf (UnpackedFloat.pack Format.binary64 p.unpacked).toNat = p
    rw [toNat_pack_unpacked hp hn, partsOf_word hp hn]

private theorem partsOf_packComponents (negative : Bool) {field : BitVec 11} (fraction : BitVec 52)
    (hfield : field.toNat = 2047 → fraction.toNat = 0) :
    partsOf (packComponents Format.binary64 (signOf negative) field fraction).toNat ≠ .nan ∧
      (partsOf (packComponents Format.binary64 (signOf negative) field fraction).toNat).isNegative =
        negative := by
  have hlow := field.isLt
  have hfraction := fraction.isLt
  have hsign : decide (2 ^ 63 ≤ signWord negative + field.toNat * 2 ^ 52 + fraction.toNat) =
      negative := by
    cases negative
    · exact decide_eq_false (by simp only [signWord, cond_false]; omega)
    · exact decide_eq_true (by simp only [signWord, cond_true]; omega)
  have hquotient : (signWord negative + field.toNat * 2 ^ 52 + fraction.toNat) / 2 ^ 52 % 2 ^ 11 =
      field.toNat := by
    cases negative <;> simp only [signWord, cond_true, cond_false] <;> omega
  have hrest : (signWord negative + field.toNat * 2 ^ 52 + fraction.toNat) % 2 ^ 52 =
      fraction.toNat := by
    cases negative <;> simp only [signWord, cond_true, cond_false] <;> omega
  rw [toNat_packComponents, toNat_signOf]
  unfold partsOf
  rw [hquotient, hrest, hsign]
  split
  · rw [if_pos (hfield ‹_›)]
    exact ⟨by simp, rfl⟩
  · split <;> exact ⟨by simp, rfl⟩

/-- A packed finite number may become infinite, but it is a number of the same sign. -/
theorem parts_pack_finite (negative : Bool) (mantissa : Nat) (exponent : Int) (h : 0 < mantissa) :
    parts (.ofModel (.pack (.finite (signOf negative) mantissa exponent h))) ≠ .nan ∧
      (parts (.ofModel (.pack (.finite (signOf negative) mantissa exponent h)))).isNegative =
        negative := by
  rw [parts_eq]
  change partsOf (UnpackedFloat.pack Format.binary64 _).toNat ≠ .nan ∧
    (partsOf (UnpackedFloat.pack Format.binary64 _).toNat).isNegative = negative
  unfold UnpackedFloat.pack
  simp only
  split
  · exact partsOf_packComponents negative 0 fun _ ↦ rfl
  · rename_i hexponent
    split
    · refine partsOf_packComponents negative _ fun hfield ↦ ?_
      rw [BitVec.toNat_ofNat] at hfield
      change ¬ 2 ^ 11 ≤ _ + 1 at hexponent
      change _ % 2 ^ 11 = 2047 at hfield
      omega
    · refine partsOf_packComponents negative _ fun hfield ↦ ?_
      exact absurd hfield (by decide)

/-! ### Numbers put together from their parts -/

theorem parts_ofBits {word : Nat} (hlt : word < 2 ^ 64) :
    parts (.ofBits (.ofNat word)) = partsOf word := by
  have hword : (UInt64.ofNat word).toBitVec.toNat = word := Nat.mod_eq_of_lt hlt
  have hunpack : Float.ofBits (.ofNat word) = .ofModel (.pack (partsOf word).unpacked) := by
    change Float.ofModel (.pack (UnpackedFloat.unpack Format.binary64 (UInt64.ofNat word).toBitVec))
      = _
    rw [unpack_eq, hword]
  rw [hunpack, parts_ofModel_pack (isCanonical_partsOf word)]

theorem ofParts_eq_ofBits {negative : Bool} {mantissa : Nat} {exponent : Int}
    (hp : (Parts.finite negative mantissa exponent).IsCanonical) :
    ofParts negative mantissa exponent =
      .ofBits (.ofNat (Parts.finite negative mantissa exponent).word) := by
  have hsign : (if negative then twoTo 63 else 0) = signWord negative := by
    cases negative <;> rfl
  have hword : min ((exponent - leastExponent).toNat * twoTo 52 + mantissa) (2047 * twoTo 52) +
      (if negative then twoTo 63 else 0) = (Parts.finite negative mantissa exponent).word := by
    rw [hsign]
    exact congrArg (· + signWord negative)
      (Nat.min_eq_left (Nat.le_of_lt (Parts.magnitude_finite_lt hp)))
  exact congrArg (fun word ↦ Float.ofBits (UInt64.ofNat word)) hword

theorem parts_ofParts {negative : Bool} {mantissa : Nat} {exponent : Int}
    (hp : (Parts.finite negative mantissa exponent).IsCanonical) :
    parts (ofParts negative mantissa exponent) = .finite negative mantissa exponent := by
  rw [ofParts_eq_ofBits hp, parts_ofBits (Parts.word_lt hp), partsOf_word hp (by simp)]

theorem ofParts_parts {x : Float} {negative : Bool} {mantissa : Nat} {exponent : Int}
    (hx : parts x = .finite negative mantissa exponent) :
    ofParts negative mantissa exponent = x := by
  have hp : (Parts.finite negative mantissa exponent).IsCanonical := hx ▸ isCanonical_parts x
  have hparts := parts_ofParts hp
  exact parts_inj (by rw [hparts]; simp) (hparts.trans hx.symm)

end Ventilation.Binary64
