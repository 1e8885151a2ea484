import Ventilation.Pricing.Options
import Ventilation.Toml.Document

/-!
Engine options as a configuration document. Whatever the document leaves out has its default, and
names that are not known are passed over. A record may also be given as an array of its figures in
order.
-/

set_option autoImplicit false

namespace Ventilation.Config

open Toml

/-- A figure; whole numbers are figures as well. -/
def figure? : Value → Option Float
  | .float x => some x
  | .integer n => some (Binary64.ofInt n)
  | _ => none

def text? : Value → Option String
  | .string text => some text
  | _ => none

/-- The items of an array of either form. -/
def items? : Value → Option (List Value)
  | .array items => some items
  | .tables items => some items
  | _ => none

def texts? (v : Value) : Option (List String) := (items? v).bind fun items => items.mapM text?

/-- How the fields of a record are found: by name in a table, by position in an array. -/
def fields? : Value → Option (Nat → String → Option Value)
  | .table _ entries => some fun _ name => find? name entries
  | .inline entries => some fun _ name => find? name entries
  | .array items => some fun index _ => items[index]?
  | .tables items => some fun index _ => items[index]?
  | _ => none

/-- A field that may be missing but not of the wrong kind. -/
def orDefault {α : Type} (read : Value → Option α) (default : α) : Option Value → Option α
  | some v => read v
  | none => some default

def family? (v : Value) : Option (HandGearFamily Float) := do
  let field ← fields? v
  let std := HandGearFamily.standard
  let models ← orDefault texts? std.models (field 0 "models")
  let unitPrice ← orDefault figure? std.unitPrice (field 1 "unit_price")
  let maxHeight ← orDefault figure? std.maxHeight (field 2 "max_height")
  let maxWidth ← orDefault figure? std.maxWidth (field 3 "max_width")
  let cellMm ← orDefault figure? std.cellMm (field 4 "cell_mm")
  return ⟨models, unitPrice, maxHeight, maxWidth, cellMm⟩

def accessory? (v : Value) : Option AccessoryOptions := do
  let field ← fields? v
  let rate ← orDefault figure? AccessoryOptions.standard.rate (field 0 "rate")
  let minimum ← orDefault figure? AccessoryOptions.standard.minimum (field 1 "minimum")
  return ⟨rate, minimum⟩

def options? (entries : Entries) : Option EngineOptions := do
  let field (name : String) : Option Value := find? name entries
  let std := EngineOptions.standard
  let families ← orDefault (fun v => (items? v).bind fun items => items.mapM family?) std.families
    (field "hand_gear_families")
  let accessory ← orDefault accessory? std.accessory (field "accessory")
  let special ← orDefault figure? std.specialColorMultiplier
    (field "default_special_color_multiplier")
  return ⟨families, accessory, special⟩

/-- Reads and checks the options of a document. -/
def ofText? (text : String) : Except ConfigError EngineOptions := do
  match (document? text).bind options? with
  | none => .error .malformed
  | some options => do
    options.validate
    return options

/-- The options of a file, if there is one. -/
def ofFile? (file : Option String) : Except ConfigError EngineOptions :=
  match file with
  | some text => ofText? text
  | none => .error .unreadable

end Ventilation.Config
