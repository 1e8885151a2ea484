import Ventilation.Number.Binary64

/-!
The shortest decimal of a binary64 number: of all decimals that read back as the number, one with
the fewest digits, and of those the nearest. All tests are made on whole numbers, in quarters of
the number's last binary place.
-/

set_option autoImplicit false

namespace Ventilation.Binary64

/-- The decimal `digits` · 10 ^ `exponent`. -/
structure Scientific where
  digits : Nat
  exponent : Int
  deriving DecidableEq, Repr

/-- The power of ten of the first digit. -/
def Scientific.leading (d : Scientific) : Int :=
  d.exponent + (Nat.toDigits 10 d.digits).length - 1

/-- The decimals that read back as `mantissa` · 2 ^ `exponent` lie from `low` to `high` quarters of
the last place, the ends belonging to them for an even mantissa. -/
structure Neighbourhood where
  low : Nat
  middle : Nat
  high : Nat
  closed : Bool

/-- Just below a power of two the numbers lie twice as close, save at the least exponent. -/
def neighbourhood (mantissa : Nat) (exponent : Int) : Neighbourhood where
  low := 4 * mantissa - if mantissa = twoTo 52 ∧ leastExponent < exponent then 1 else 2
  middle := 4 * mantissa
  high := 4 * mantissa + 2
  closed := mantissa % 2 = 0

/-- Whether `point` lies in the neighbourhood, whose quarters are `unit` points wide. -/
def Neighbourhood.covers (n : Neighbourhood) (unit point : Nat) : Bool :=
  if n.closed then n.low * unit ≤ point ∧ point ≤ n.high * unit
  else n.low * unit < point ∧ point < n.high * unit

/-- Which of two decimals is taken that are equally near. -/
inductive Tie where
  | upper
  | even
  deriving DecidableEq, Repr

/-- The multiple of 10 ^ `place` that is nearest to the number, if it reads back as it. -/
def onGrid (tie : Tie) (mantissa : Nat) (exponent place : Int) : Option Scientific :=
  let n := neighbourhood mantissa exponent
  let unit := twoTo (exponent - 2).toNat * tenTo (-place).toNat
  let step := twoTo (2 - exponent).toNat * tenTo place.toNat
  let below := n.middle * unit / step
  let lower := n.covers unit (below * step)
  let upper := n.covers unit ((below + 1) * step)
  let down := n.middle * unit - below * step
  let up := (below + 1) * step - n.middle * unit
  let nearer := down < up || (down == up && tie == .even && below % 2 == 0)
  if lower && (nearer || !upper) then some ⟨below, place⟩
  else if upper then some ⟨below + 1, place⟩
  else none

/-- A power of ten above `mantissa` · 2 ^ `exponent`. -/
def placeAbove (mantissa : Nat) (exponent : Int) : Int :=
  (exponent + mantissa.log2 + 1) * 30103 / 100000 + 1

/-- All digits of the number, were no grid to hold a shorter decimal. -/
def allDigits (mantissa : Nat) (exponent : Int) : Scientific :=
  ⟨mantissa * twoTo exponent.toNat * Nat.pow 5 (-exponent).toNat, min exponent 0⟩

/-- The shortest decimal of a positive number, found on the coarsest grid that holds one. -/
def shortest (tie : Tie) (mantissa : Nat) (exponent : Int) : Scientific :=
  let places := (List.range 21).map fun i : Nat => placeAbove mantissa exponent - Int.ofNat i
  (places.findSome? (onGrid tie mantissa exponent)).getD (allDigits mantissa exponent)

end Ventilation.Binary64
