/-!
What can be wrong with a size, a diameter, a unit or a length that a caller writes down.
-/

set_option autoImplicit false

namespace Ventilation

inductive MeasureError where
  /-- The text holds no width and height. -/
  | size (text : String)
  /-- The text holds no number. -/
  | diameter (text : String)
  | unit (token : String)
  | dimension (text : String)
  deriving DecidableEq, Repr

def MeasureError.message : MeasureError → String
  | .size text => "Invalid size: " ++ text
  | .diameter text => "Invalid diameter: " ++ text
  | .unit token =>
    "Incompatible unit \"" ++ token ++ "\". Supported units are: inches (or \"), " ++
      "millimeters (or mm), centimeters (or cm), meters (or m), feet (or ft)"
  | .dimension text => "Invalid dimension: " ++ text

end Ventilation
