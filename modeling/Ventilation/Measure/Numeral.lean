import Ventilation.Number.Text
import Ventilation.Text.Character

/-!
Numerals within a text: decimal digits, and after a point further digits. Digits of any script make
a numeral, but only ASCII ones can be read.
-/

set_option autoImplicit false

namespace Ventilation.Numeral

open Text

/-- The numeral at the front, taken as long as it goes, and the rest. -/
def atFront (cs : List Char) : Option (List Char × List Char) :=
  let whole := cs.takeWhile isDecimalDigit
  let rest := cs.dropWhile isDecimalDigit
  if whole.isEmpty then none
  else
    match rest with
    | '.' :: more =>
      let fraction := more.takeWhile isDecimalDigit
      if fraction.isEmpty then some (whole, rest)
      else some (whole ++ '.' :: fraction, more.dropWhile isDecimalDigit)
    | _ => some (whole, rest)

/-- The first numeral of a text. -/
def first (cs : List Char) : Option (List Char) :=
  (atFront (cs.dropWhile fun c => !isDecimalDigit c)).map Prod.fst

/-- The value of the first numeral of a text. -/
def firstValue (cs : List Char) : Option Float := (first cs).bind Binary64.read

end Ventilation.Numeral
