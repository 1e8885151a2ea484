import Ventilation.Measure.Error
import Ventilation.Measure.Numeral
import Ventilation.Text.Search

/-!
Lengths in the units that callers use. Price tables are indexed by inches. A length is converted by
the quoting convention, where an inch has 25 millimetres; size texts with a metric suffix are
converted by the physical inch of 25.4 millimetres.
-/

set_option autoImplicit false

namespace Ventilation

open Text

inductive LengthUnit where
  | inches
  | millimeters
  | centimeters
  | meters
  | feet
  deriving DecidableEq, Repr

namespace LengthUnit

def name : LengthUnit → String
  | inches => "inches"
  | millimeters => "millimeters"
  | centimeters => "centimeters"
  | meters => "meters"
  | feet => "feet"

/-- The sign written after a number. -/
def suffix : LengthUnit → String
  | inches => "\""
  | millimeters => "mm"
  | centimeters => "cm"
  | meters => "m"
  | feet => "ft"

def mmPerQuotedInch : Float := 25

def mmPerInch : Float := 25.4

/-- A value of this unit in inches, by the quoting convention. -/
def toInches (unit : LengthUnit) (value : Float) : Float :=
  match unit with
  | inches => value
  | millimeters => value / mmPerQuotedInch
  | centimeters => value / 2.5
  | meters => value * 40
  | feet => value * 12

/-- A value of this unit in physical inches. -/
def toPhysicalInches (unit : LengthUnit) (value : Float) : Float :=
  match unit with
  | inches => value
  | millimeters => value / mmPerInch
  | centimeters => value / (mmPerInch / 10)
  | meters => value * 1000 / mmPerInch
  | feet => value * 12

/-- The unit that a token names, in any letter case. The longer metric names are tried first, so
that `mm` does not pass for metres. -/
def ofToken? (token : String) : Except MeasureError LengthUnit :=
  let lower := lowercase (trim token.toList)
  let has (part : String) : Bool := occurs part.toList lower
  let is (whole : String) : Bool := lower == whole.toList
  if has "mm" || has "millimeter" then .ok millimeters
  else if has "cm" || has "centimeter" then .ok centimeters
  else if is "m" || has "meter" || has "metre" then .ok meters
  else if is "ft" || is "'" || has "foot" || has "feet" then .ok feet
  else if has "inch" || is "\"" || is "in" then .ok inches
  else .error (.unit token)

/-- The unit written somewhere in the text of a length. Quote marks go before letters. -/
def detect? (cs : List Char) : Option LengthUnit :=
  let lower := lowercase cs
  let has (part : String) : Bool := occurs part.toList lower
  if cs.contains '"' then some inches
  else if cs.contains '\'' then some feet
  else if has "mm" then some millimeters
  else if has "cm" then some centimeters
  else if has "ft" || has "feet" || has "foot" then some feet
  else if has "in" then some inches
  else if has "m" then some meters
  else none

end LengthUnit

/-- A length in the unit it was given in. -/
structure Length where
  value : Float
  unit : LengthUnit

namespace Length

/-- Reads a length such as `550mm`, `3"` or `2ft`: the first number of the text, in the unit that
the text shows, or else in the default unit. -/
def ofText? (text : String) (defaultUnit : LengthUnit) : Except MeasureError Length :=
  let cs := trim text.toList
  match Numeral.firstValue cs with
  | some value => .ok ⟨value, (LengthUnit.detect? cs).getD defaultUnit⟩
  | none => .error (.dimension text)

def toInches (l : Length) : Float := l.unit.toInches l.value

def toPhysicalInches (l : Length) : Float := l.unit.toPhysicalInches l.value

def text (l : Length) : String := Binary64.display l.value ++ l.unit.suffix

end Length

end Ventilation
