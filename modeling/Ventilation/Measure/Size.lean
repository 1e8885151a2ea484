import Ventilation.Measure.Length
import Ventilation.Number.Scalar

/-!
Sizes of items: width and height of a rectangular one, the diameter of a round one, and the texts
`12" x 8"` and `8" diameter` by which catalog and engine pass them on. Reading a text cuts to whole
inches, as the price tables are indexed.
-/

set_option autoImplicit false

namespace Ventilation

open Text

structure Dimensions (α : Type) where
  width : α
  height : α
  deriving DecidableEq, Repr

namespace Dimensions

variable {α : Type} [Scalar α]

/-- The pair with the larger side as width, and whether it had to be turned. -/
def canonicalize (d : Dimensions α) : Dimensions α × Bool :=
  if d.width < d.height then (⟨d.height, d.width⟩, true) else (d, false)

def area (d : Dimensions α) : α := d.width * d.height

end Dimensions

namespace Size

/-- The unit sign at the front, if there is one, and the rest. -/
def unitAtFront (cs : List Char) : Option LengthUnit × List Char :=
  match cs with
  | 'm' :: 'm' :: rest => (some .millimeters, rest)
  | 'c' :: 'm' :: rest => (some .centimeters, rest)
  | 'f' :: 't' :: rest => (some .feet, rest)
  | 'i' :: 'n' :: rest => (some .inches, rest)
  | 'm' :: rest => (some .meters, rest)
  | '"' :: rest => (some .inches, rest)
  | '\'' :: rest => (some .feet, rest)
  | _ => (none, cs)

/-- A side as written: its numeral and its unit. -/
structure Side where
  numeral : List Char
  unit : Option LengthUnit

/-- A numeral, blanks and a unit at the front, and the rest. -/
def sideAtFront (cs : List Char) : Option (Side × List Char) :=
  (Numeral.atFront cs).map fun (numeral, rest) =>
    let (unit, rest) := unitAtFront (trimStart rest)
    (⟨numeral, unit⟩, rest)

/-- Two sides at the front with an `x` between them. -/
def pairAtFront (cs : List Char) : Option (Side × Side) :=
  (sideAtFront cs).bind fun (width, rest) =>
    match trimStart rest with
    | 'x' :: rest => (sideAtFront (trimStart rest)).map fun (height, _) => (width, height)
    | _ => none

/-- The first place of the text where two sides stand. -/
def firstPair : List Char → Option (Side × Side)
  | [] => none
  | c :: cs =>
    match pairAtFront (c :: cs) with
    | some pair => some pair
    | none => firstPair cs

/-- Whole inches; a side without a unit is in inches. -/
def Side.wholeInches? (side : Side) : Option Float :=
  (Binary64.read side.numeral).map fun value =>
    Binary64.trunc ((side.unit.getD .inches).toPhysicalInches value)

/-- Reads width and height of a text such as `12 x 8` or `610mm x 305mm`. -/
def ofText? (text : String) : Except MeasureError (Dimensions Float) :=
  let sides := (firstPair (lowercase text.toList)).bind fun (width, height) =>
    width.wholeInches?.bind fun w => height.wholeInches?.map fun h => Dimensions.mk w h
  match sides with
  | some d => .ok d
  | none => .error (.size text)

/-- Reads the first number of a text as a diameter in inches. -/
def diameterOfText? (text : String) : Except MeasureError Float :=
  match Numeral.firstValue text.toList with
  | some value => .ok (Binary64.trunc value)
  | none => .error (.diameter text)

/-- Inches as the catalog shows them: `12"` or `12.5"`. -/
def inchesText (value : Float) : String :=
  if Binary64.fract value == 0 then toString (Binary64.toInt64 value) ++ "\""
  else Binary64.display value ++ "\""

def rectText (width height : Float) : String :=
  inchesText width ++ " x " ++ inchesText height

def diameterText (diameter : Float) : String := inchesText diameter ++ " diameter"

end Size

end Ventilation
