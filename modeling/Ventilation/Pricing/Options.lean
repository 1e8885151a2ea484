import Ventilation.Measure.Size
import Ventilation.Number.Text

/-!
What an engine can be set up with: the families of dampers that are operated by hand gear, the
prices of insect screens, and the multiplier of special colours. The defaults are the catalog's
long-standing figures.
-/

set_option autoImplicit false

namespace Ventilation

/-- Why a configuration is refused. -/
inductive ConfigError where
  /-- A model belongs to two families. -/
  | duplicateModel (model : String)
  /-- A figure is out of its range, which may begin at zero or only above it. -/
  | invalidValue (field : String) (zeroAllowed : Bool) (value : Float)
  /-- The text is no document, or a value is of the wrong kind. -/
  | malformed
  /-- There is no such file. -/
  | unreadable

def ConfigError.message : ConfigError → String
  | duplicateModel model =>
    "model " ++ model ++ " is assigned to more than one pricing override"
  | invalidValue field zeroAllowed value =>
    field ++ " must be " ++ (if zeroAllowed then "zero or more" else "a positive number") ++
      ", got " ++ Binary64.display value
  | malformed => "invalid config"
  | unreadable => "failed to read config"

def checkPositive (field : String) (x : Float) : Except ConfigError Unit :=
  if x.isFinite && 0 < x then .ok () else .error (.invalidValue field false x)

def checkNonNegative (field : String) (x : Float) : Except ConfigError Unit :=
  if x.isFinite && 0 ≤ x then .ok () else .error (.invalidValue field true x)

/-- Dampers with a gear cell for each square of side `cellMm`, built from panels of at most
`maxHeight` by `maxWidth` inches. -/
structure HandGearFamily (α : Type) where
  models : List String
  unitPrice : α
  maxHeight : α
  maxWidth : α
  cellMm : α

def HandGearFamily.standard : HandGearFamily Float := ⟨["VD"], 600, 40, 80, 1500⟩

def HandGearFamily.validate (f : HandGearFamily Float) : Except ConfigError Unit := do
  checkPositive "max_height" f.maxHeight
  checkPositive "max_width" f.maxWidth
  checkPositive "cell_mm" f.cellMm
  checkNonNegative "unit_price" f.unitPrice

/-- The price of an insect screen per square inch, and the least one. -/
structure AccessoryOptions where
  rate : Float
  minimum : Float

def AccessoryOptions.standard : AccessoryOptions := ⟨0.15, 50⟩

def AccessoryOptions.validate (a : AccessoryOptions) : Except ConfigError Unit := do
  checkNonNegative "accessory.rate" a.rate
  checkNonNegative "accessory.minimum" a.minimum

def AccessoryOptions.price (a : AccessoryOptions) (d : Dimensions Float) : Float :=
  Scalar.larger (d.width * d.height * a.rate) a.minimum

structure EngineOptions where
  families : List (HandGearFamily Float)
  accessory : AccessoryOptions
  specialColorMultiplier : Float

def EngineOptions.standard : EngineOptions := ⟨[.standard], .standard, 1⟩

def EngineOptions.validate (o : EngineOptions) : Except ConfigError Unit := do
  checkPositive "default_special_color_multiplier" o.specialColorMultiplier
  o.accessory.validate
  o.families.forM HandGearFamily.validate

end Ventilation
