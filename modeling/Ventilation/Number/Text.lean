import Ventilation.Number.Shortest

/-!
Numbers as text: how the shortest decimal of a number is laid out, and which texts are read as a
number. Reading is exact: the digits are taken whole and rounded once.
-/

set_option autoImplicit false

namespace Ventilation.Binary64

/-- How a number is written: which of two equally near decimals is taken, whole numbers with or
without `.0`, and the powers of ten of the first digit for which no exponent is used. -/
structure Style where
  tie : Tie
  wholeMark : Bool
  positional : Int → Bool

/-- Amounts and sizes are written without exponent, whole ones without a point. -/
def plain : Style := ⟨.upper, false, fun _ => true⟩

/-- Numbers quoted in an error keep `.0`, and go to an exponent from 10 ^ 16 on and below
10 ^ -4. -/
def quoted : Style := ⟨.upper, true, fun leading => decide (-4 ≤ leading ∧ leading < 16)⟩

/-- Numbers of a JSON document keep `.0`, and go to an exponent from 10 ^ 16 on and below
10 ^ -5. -/
def json : Style := ⟨.even, true, fun leading => decide (-5 ≤ leading ∧ leading < 16)⟩

/-- The digits with the point `fraction` places from the right end. -/
def pointed (digits : List Char) (fraction : Nat) : List Char :=
  let padded := List.replicate (fraction + 1 - digits.length) '0' ++ digits
  let whole := padded.length - fraction
  padded.take whole ++ '.' :: padded.drop whole

def positionalText (style : Style) (d : Scientific) : List Char :=
  let digits := Nat.toDigits 10 d.digits
  if d.exponent < 0 then pointed digits (-d.exponent).toNat
  else
    digits ++ List.replicate d.exponent.toNat '0' ++ if style.wholeMark then ['.', '0'] else []

def exponentText (d : Scientific) : List Char :=
  let digits := Nat.toDigits 10 d.digits
  let leading := d.leading
  let mark := if leading < 0 then ['e', '-'] else ['e']
  (if digits.length ≤ 1 then digits else pointed digits (digits.length - 1)) ++ mark ++
    Nat.toDigits 10 leading.natAbs

def magnitudeText (style : Style) (mantissa : Nat) (exponent : Int) : List Char :=
  if mantissa = 0 then positionalText style ⟨0, 0⟩
  else
    let d := shortest style.tie mantissa exponent
    if style.positional d.leading then positionalText style d else exponentText d

def signText (negative : Bool) : List Char := if negative then ['-'] else []

def textChars (style : Style) (x : Float) : List Char :=
  match parts x with
  | .nan => ['N', 'a', 'N']
  | .infinite negative => signText negative ++ ['i', 'n', 'f']
  | .finite negative mantissa exponent =>
    signText negative ++ magnitudeText style mantissa exponent

def text (style : Style) (x : Float) : String := String.ofList (textChars style x)

/-- The plain text of a number. -/
def display (x : Float) : String := text plain x

/-- The digits at the front and the rest. -/
def spanDigits (cs : List Char) : List Char × List Char :=
  (cs.takeWhile Char.isDigit, cs.dropWhile Char.isDigit)

/-- An exponent with its sign; the whole text has to be one. -/
def readExponent (cs : List Char) : Option Int :=
  let (negative, digits) : Bool × List Char :=
    match cs with
    | '-' :: rest => (true, rest)
    | '+' :: rest => (false, rest)
    | _ => (false, cs)
  if digits.isEmpty || !digits.all Char.isDigit then none
  else
    let n : Int := Nat.ofDigitChars 10 digits 0
    some (if negative then -n else n)

/-- Digits with an optional point among, before or after them, and an optional exponent. -/
def readMagnitude (negative : Bool) (cs : List Char) : Option Float :=
  let (whole, rest) := spanDigits cs
  let (fraction, rest) : List Char × List Char :=
    match rest with
    | '.' :: rest => spanDigits rest
    | _ => ([], rest)
  if whole.isEmpty && fraction.isEmpty then none
  else
    let exponent : Option Int :=
      match rest with
      | [] => some 0
      | c :: rest => if c = 'e' ∨ c = 'E' then readExponent rest else none
    exponent.map fun e =>
      ofDecimal negative (Nat.ofDigitChars 10 (whole ++ fraction) 0) (e - fraction.length)

def lowerAscii (cs : List Char) : List Char := cs.map Char.toLower

/-- Reads a sign and a magnitude, where `inf`, `infinity` and `nan` in any letter case are
magnitudes as well. -/
def read (cs : List Char) : Option Float :=
  let (negative, rest) : Bool × List Char :=
    match cs with
    | '-' :: rest => (true, rest)
    | '+' :: rest => (false, rest)
    | _ => (false, cs)
  let word := lowerAscii rest
  if word = ['i', 'n', 'f'] ∨ word = ['i', 'n', 'f', 'i', 'n', 'i', 't', 'y'] then
    some (if negative then -infinity else infinity)
  else if word = ['n', 'a', 'n'] then some notANumber
  else readMagnitude negative rest

end Ventilation.Binary64
