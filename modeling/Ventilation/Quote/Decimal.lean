import Ventilation.Number.Binary64

/-!
Decimal amounts of money: a whole coefficient of at most 96 bits over a power of ten of at most 28.
The scale of a result is kept, trailing zeros included, and is shown. A result with too many digits
is rounded half to even to as many as fit; one whose whole part does not fit has no value.
-/

set_option autoImplicit false

namespace Ventilation

/-- The amount `coefficient` / 10 ^ `scale`. -/
structure Decimal where
  coefficient : Int
  scale : Nat
  deriving DecidableEq, Repr

namespace Decimal

/-- Coefficients lie below this bound. -/
def limit : Nat := twoTo 96

def maxScale : Nat := 28

def ofInt (n : Int) : Decimal := ⟨n, 0⟩

def zero : Decimal := ofInt 0

def isZero (a : Decimal) : Bool := a.coefficient = 0

/-- A coefficient of the sign of `n` with the given magnitude. -/
def withSign (n : Int) (magnitude : Nat) : Int := n.sign * magnitude

/-- The amount with as many of its decimals as fit. -/
def fit? (coefficient : Int) (scale : Nat) : Option Decimal :=
  let cut := (List.range (scale + 1)).find? fun k =>
    scale - k ≤ maxScale && divideToEven coefficient.natAbs (tenTo k) < limit
  cut.map fun k =>
    ⟨withSign coefficient (divideToEven coefficient.natAbs (tenTo k)), scale - k⟩

/-- A zero operand leaves the other one as it is, its scale included. -/
def add? (a b : Decimal) : Option Decimal :=
  if a.isZero then some b
  else if b.isZero then some a
  else
    let scale := max a.scale b.scale
    fit? (a.coefficient * tenTo (scale - a.scale) + b.coefficient * tenTo (scale - b.scale)) scale

def neg (a : Decimal) : Decimal := ⟨-a.coefficient, a.scale⟩

def sub? (a b : Decimal) : Option Decimal := a.add? b.neg

def mul? (a b : Decimal) : Option Decimal :=
  if a.isZero || b.isZero then some zero
  else fit? (a.coefficient * b.coefficient) (a.scale + b.scale)

/-- Goes on with the division by 100 of an amount of which `quotient` is found and `remainder` is
left, by up to nine decimals at a time and as long as they fit; then rounds half to even. -/
def divideOn (quotient remainder scale : Nat) : Nat × Nat :=
  if remainder = 0 then (quotient, scale)
  else
    let fits := fun k =>
      scale + k ≤ maxScale && quotient * tenTo k + remainder * tenTo k / 100 < limit
    match _h : [9, 8, 7, 6, 5, 4, 3, 2, 1].find? fits with
    | some k =>
      divideOn (quotient * tenTo k + remainder * tenTo k / 100) (remainder * tenTo k % 100)
        (scale + k)
    | none => (divideToEven (quotient * 100 + remainder) 100, scale)
termination_by maxScale - scale
decreasing_by
  have hk := List.find?_some _h
  have hm := List.mem_of_find?_eq_some _h
  simp only [Bool.and_eq_true, decide_eq_true_eq, fits] at hk
  have : 0 < k := by
    simp only [List.mem_cons, List.not_mem_nil, or_false] at hm
    omega
  omega

/-- Takes out `count` trailing zeros at once, if there are so many decimals and they all are
zero. -/
def dropZeros (count : Nat) (amount : Nat × Nat) : Nat × Nat :=
  if count ≤ amount.2 && amount.1 % tenTo count = 0 then
    (amount.1 / tenTo count, amount.2 - count)
  else amount

/-- Takes out eight trailing zeros at a time while the low 32 bits of the coefficient are zero. -/
def dropEights (coefficient scale : Nat) : Nat × Nat :=
  if _h : 8 ≤ scale ∧ coefficient % twoTo 32 = 0 ∧ coefficient % tenTo 8 = 0 then
    dropEights (coefficient / tenTo 8) (scale - 8)
  else (coefficient, scale)
termination_by scale
decreasing_by omega

/-- The hundredth part. Where the division adds decimals, up to seven zeros at their end are taken
out again. -/
def hundredth (a : Decimal) : Decimal :=
  let n := a.coefficient.natAbs
  if n = 0 then zero
  else if n % 100 = 0 then ⟨withSign a.coefficient (n / 100), a.scale⟩
  else
    let (quotient, scale) := divideOn (n / 100) (n % 100) a.scale
    let (quotient, scale) := dropZeros 1 (dropZeros 2 (dropZeros 4 (dropEights quotient scale)))
    ⟨withSign a.coefficient quotient, scale⟩

/-- The amount with at most so many decimals, rounded half to even. -/
def roundTo (a : Decimal) (places : Nat) : Decimal :=
  if a.scale ≤ places then a
  else
    ⟨withSign a.coefficient (divideToEven a.coefficient.natAbs (tenTo (a.scale - places))), places⟩

/-! Amounts of binary numbers -/

/-- Turns `coefficient` · 5 ^ `fives` · 10 ^ `tens` into a coefficient without fives. Each five is
taken against a factor 2 of the coefficient, or multiplied in as long as 96 bits hold it, or else
against half of the coefficient. -/
def absorbFives (coefficient : Nat) (tens : Int) : Nat → Nat × Int
  | 0 => (coefficient, tens)
  | fives + 1 =>
    if coefficient % 2 = 0 then absorbFives (coefficient / 2) (tens + 1) fives
    else if coefficient * 5 < limit then absorbFives (coefficient * 5) tens fives
    else absorbFives (coefficient / 2) (tens + 1) fives

/-- Turns `coefficient` / 5 ^ `fives` · 10 ^ `tens` into a coefficient without fives, doubling it as
long as 96 bits hold it. -/
def cancelFives (coefficient : Nat) (tens : Int) : Nat → Nat × Int
  | 0 => (coefficient, tens)
  | fives + 1 =>
    if coefficient < twoTo 95 then cancelFives (coefficient * 2) (tens - 1) fives
    else cancelFives (coefficient / 5) tens fives

/-- Multiplies a power of ten in, if 96 bits hold the product. -/
def absorbTens? (coefficient : Nat) : Nat → Option Nat
  | 0 => some coefficient
  | tens + 1 => if coefficient * 10 < limit then absorbTens? (coefficient * 10) tens else none

/-- The coefficient without its last digit, a five or more rounding up. -/
def dropDigit (coefficient : Nat) : Nat :=
  coefficient / 10 + if 5 ≤ coefficient % 10 then 1 else 0

/-- Drops decimals that are too many, one at a time; what vanishes on the way is zero. -/
def dropSurplus (coefficient : Nat) (scale : Nat) : Nat × Nat :=
  if _h : maxScale < scale then
    if coefficient / 10 = 0 then (0, 0) else dropSurplus (dropDigit coefficient) (scale - 1)
  else (coefficient, scale)
termination_by scale
decreasing_by omega

/-- Drops decimals while the coefficient has more than the 52 bits that a binary number vouches
for. -/
def dropDoubtful (coefficient : Nat) : Nat → Nat × Nat
  | 0 => (coefficient, 0)
  | scale + 1 =>
    if twoTo 52 ≤ coefficient then dropDoubtful (dropDigit coefficient) scale
    else (coefficient, scale + 1)

/-- Drops all trailing zeros among the decimals. -/
def dropTrailing (coefficient : Nat) : Nat → Nat × Nat
  | 0 => (coefficient, 0)
  | scale + 1 =>
    if coefficient % 10 = 0 then dropTrailing (coefficient / 10) scale else (coefficient, scale + 1)

/-- The decimal nearest to a binary number, to about fifteen digits. -/
def ofFloat? (x : Float) : Option Decimal :=
  match Binary64.parts x with
  | .nan | .infinite _ => none
  | .finite negative mantissa exponent =>
    if mantissa = 0 then some zero
    else
      let (coefficient, tens) :=
        if exponent < 0 then absorbFives mantissa exponent exponent.natAbs
        else cancelFives mantissa exponent exponent.natAbs
      (absorbTens? coefficient tens.toNat).map fun coefficient =>
        let (coefficient, scale) := dropSurplus coefficient (-tens).toNat
        let (coefficient, scale) := dropDoubtful coefficient scale
        let (coefficient, scale) := dropTrailing coefficient scale
        ⟨if negative then -coefficient else coefficient, scale⟩

/-! Text -/

def text (a : Decimal) : String :=
  let digits := Nat.toDigits 10 a.coefficient.natAbs
  let padded := List.replicate (a.scale + 1 - digits.length) '0' ++ digits
  let whole := padded.length - a.scale
  String.ofList ((if a.coefficient < 0 then ['-'] else []) ++ padded.take whole ++
    if a.scale = 0 then [] else '.' :: padded.drop whole)

/-- What is known of a decimal while its text is read. -/
structure Reading where
  coefficient : Nat
  scale : Nat
  point : Bool
  digits : Bool

/-- The amount read so far, rounded half up by the digit after it; what follows that digit no longer
counts. -/
def Reading.roundedBy (r : Reading) (next : Char) : Option (Nat × Nat) :=
  if next.isDigit then
    if next.toNat - '0'.toNat < 5 then some (r.coefficient, r.scale)
    else if r.coefficient + 1 < limit then some (r.coefficient + 1, r.scale)
    else if r.scale = 0 then none
    else some ((r.coefficient + 5) / 10, r.scale - 1)
  else if next = '_' || next = '.' then some (r.coefficient, r.scale)
  else none

/-- Reads digits, one point among them, and underscores after the first digit. -/
def readOn (r : Reading) : List Char → Option (Nat × Nat)
  | [] => if r.digits then some (r.coefficient, r.scale) else none
  | c :: cs =>
    if r.point && r.scale = maxScale then r.roundedBy c
    else if c.isDigit then
      let coefficient := r.coefficient * 10 + (c.toNat - '0'.toNat)
      if coefficient < limit then
        readOn ⟨coefficient, if r.point then r.scale + 1 else r.scale, r.point, true⟩ cs
      else if r.point then r.roundedBy c
      else none
    else if c = '.' && !r.point then readOn { r with point := true } cs
    else if c = '_' && r.digits then readOn r cs
    else none

/-- Reads a decimal with an optional sign. -/
def ofText? (text : String) : Option Decimal :=
  let (negative, cs) : Bool × List Char :=
    match text.toList with
    | '-' :: rest => (true, rest)
    | '+' :: rest => (false, rest)
    | cs => (false, cs)
  (readOn ⟨0, 0, false, false⟩ cs).map fun (coefficient, scale) =>
    ⟨if negative then -coefficient else coefficient, scale⟩

end Decimal

end Ventilation
