/-!
Binary64 numbers as a sign, a whole mantissa and a power of two. Every rounding of this library is
taken here, on whole numbers: `nearest` rounds a quotient to the nearest number, a tie to the even
mantissa, and the directed roundings cut a number to a whole one.
-/

set_option autoImplicit false

namespace Ventilation

/-- The power of two with `k` zero bits after its one. -/
abbrev twoTo (k : Nat) : Nat := Nat.pow 2 k

/-- The power of ten with `k` zeros after its one. -/
abbrev tenTo (k : Nat) : Nat := Nat.pow 10 k

/-- The quotient rounded to the nearest whole number, a tie to the even one. -/
def divideToEven (n d : Nat) : Nat :=
  if 2 * (n % d) < d ∨ (2 * (n % d) = d ∧ n / d % 2 = 0) then n / d else n / d + 1

namespace Binary64

/-- A finite number is ± `mantissa` · 2 ^ `exponent`; zero has mantissa 0 and keeps its sign. -/
inductive Parts where
  | nan
  | infinite (negative : Bool)
  | finite (negative : Bool) (mantissa : Nat) (exponent : Int)
  deriving DecidableEq, Repr

/-- The least exponent, that of subnormal numbers. -/
def leastExponent : Int := -1074

def parts (x : Float) : Parts :=
  let bits := x.toBits.toNat
  let negative := decide (twoTo 63 ≤ bits)
  let field : Nat := bits / twoTo 52 % twoTo 11
  let fraction : Nat := bits % twoTo 52
  if field = 2047 then if fraction = 0 then .infinite negative else .nan
  else if field = 0 then .finite negative fraction leastExponent
  else .finite negative (twoTo 52 + fraction) ((field : Int) - 1075)

/-- The number ± `mantissa` · 2 ^ `exponent`, for a mantissa of at most 2 ^ 53 that is at least
2 ^ 52 unless the exponent is the least one. What lies beyond the largest number is infinite. -/
def ofParts (negative : Bool) (mantissa : Nat) (exponent : Int) : Float :=
  let magnitude := min ((exponent - leastExponent).toNat * twoTo 52 + mantissa) (2047 * twoTo 52)
  Float.ofBits (UInt64.ofNat (magnitude + if negative then twoTo 63 else 0))

/-- The greatest `k` with 2 ^ `k` at most `n / d`. -/
def floorLog2 (n d : Nat) : Int :=
  let k : Int := n.log2 - d.log2
  if n * twoTo (-k).toNat < d * twoTo k.toNat then k - 1 else k

/-- The number nearest to ± `n / d`. -/
def nearest (negative : Bool) (n d : Nat) : Float :=
  if n = 0 then ofParts negative 0 leastExponent
  else
    let exponent := max (floorLog2 n d - 52) leastExponent
    let mantissa := divideToEven (n * twoTo (-exponent).toNat) (d * twoTo exponent.toNat)
    ofParts negative mantissa exponent

/-- The number nearest to ± `digits` · 10 ^ `exponent`. Exponents so large or so small that only
infinity or zero can come out are settled without computing the power of ten. -/
def ofDecimal (negative : Bool) (digits : Nat) (exponent : Int) : Float :=
  if digits = 0 ∨ exponent + digits.log2 < -400 then ofParts negative 0 leastExponent
  else if 400 < exponent then ofParts negative (2047 * twoTo 52) leastExponent
  else nearest negative (digits * tenTo exponent.toNat) (tenTo (-exponent).toNat)

def ofInt (n : Int) : Float :=
  nearest (decide (n < 0)) n.natAbs 1

/-- Which whole number stands for a number between two. -/
inductive Direction where
  | down
  | up
  | towardZero
  /-- To the nearer one, a tie away from zero. -/
  | nearestAway
  deriving DecidableEq, Repr

/-- Whether the magnitude `whole + rest / unit` goes up to `whole + 1`. -/
def Direction.raises (direction : Direction) (negative : Bool) (rest unit : Nat) : Bool :=
  match direction with
  | .down => negative && rest ≠ 0
  | .up => !negative && rest ≠ 0
  | .towardZero => false
  | .nearestAway => decide (unit ≤ 2 * rest)

/-- A number without a fraction stays as it is, the sign of zero included. -/
def toWhole (direction : Direction) (x : Float) : Float :=
  match parts x with
  | .finite negative mantissa exponent =>
    if 0 ≤ exponent then x
    else
      let unit := twoTo (-exponent).toNat
      let raised := if direction.raises negative (mantissa % unit) unit then 1 else 0
      nearest negative (mantissa / unit + raised) 1
  | _ => x

def floor (x : Float) : Float := toWhole .down x

def ceil (x : Float) : Float := toWhole .up x

def trunc (x : Float) : Float := toWhole .towardZero x

def round (x : Float) : Float := toWhole .nearestAway x

/-- What is left of a number without its whole part; not a number for an infinite one. -/
def fract (x : Float) : Float := x - trunc x

/-- The whole part as an integer, cut to the range `low` to `high`; zero for what is no number. -/
def toIntWithin (low high : Int) (x : Float) : Int :=
  match parts x with
  | .nan => 0
  | .infinite negative => if negative then low else high
  | .finite negative mantissa exponent =>
    let whole : Int := (mantissa * twoTo exponent.toNat / twoTo (-exponent).toNat : Nat)
    max low (min high (if negative then -whole else whole))

/-- The whole part as a 64-bit integer. -/
def toInt64 (x : Float) : Int := toIntWithin (-twoTo 63) (twoTo 63 - 1) x

/-- The whole part as a 32-bit integer. -/
def toInt32 (x : Float) : Int := toIntWithin (-twoTo 31) (twoTo 31 - 1) x

def infinity : Float := ofParts false (2047 * twoTo 52) leastExponent

def notANumber : Float := Float.ofBits 0x7FF8000000000000

/-- `product` · `base` ^ `n`, one multiplication for each binary digit 1 of `n` and a squaring
between the digits. -/
def squaringPower (product base : Float) (n : Nat) : Float :=
  let product := if n % 2 = 1 then product * base else product
  if _h : n / 2 = 0 then product else squaringPower product (base * base) (n / 2)
termination_by n
decreasing_by omega

/-- `base` to a whole power; a negative power is the reciprocal of the positive one. -/
def wholePower (base : Float) (n : Int) : Float :=
  let power := squaringPower 1 base n.natAbs
  if n < 0 then 1 / power else power

end Binary64

end Ventilation
