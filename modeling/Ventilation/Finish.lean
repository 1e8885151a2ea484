import Ventilation.Number.Text
import Ventilation.Text.Character
import Ventilation.Text.Search

/-!
Surface finishes and their catalog names. A powder coating carries its colour, which never changes
the price; a special colour is priced by a multiplier of the caller.
-/

set_option autoImplicit false

namespace Ventilation

open Text

inductive Finish where
  | none
  | anodized
  | powderCoated (color : Option String)
  | specialColor
  /-- A name that the catalog does not know. -/
  | other (name : String)
  deriving DecidableEq, Repr

namespace Finish

def noneName : String := "No Finish"

def anodizedName : String := "Anodized Aluminum"

def powderCoatedName : String := "Powder Coated"

def specialColorName : String := "Special Color"

/-- What may stand between the name of the coating and its colour. -/
def isSeparator (c : Char) : Bool := isBlank c || c = '-' || c = ':'

/-- The finish that a name stands for. The two plain names are known in any ASCII letter case; the
others are looked for anywhere in the name, exactly as written. -/
def ofName (name : String) : Finish :=
  let cs := trim name.toList
  let is (known : String) : Bool := Binary64.lowerAscii cs == Binary64.lowerAscii known.toList
  if is noneName then .none
  else if is anodizedName then .anodized
  else
    match splitOnce powderCoatedName.toList cs with
    | some (_, rest) =>
      let color := trim (rest.dropWhile isSeparator)
      .powderCoated (if color.isEmpty then Option.none else some (String.ofList color))
    | Option.none =>
      if occurs specialColorName.toList cs then .specialColor else .other (String.ofList cs)

/-- The catalog name, without a colour. -/
def family : Finish → String
  | .none => noneName
  | .anodized => anodizedName
  | .powderCoated _ => powderCoatedName
  | .specialColor => specialColorName
  | .other name => name

def text : Finish → String
  | .powderCoated (some color) => powderCoatedName ++ " - " ++ color
  | finish => finish.family

end Finish

end Ventilation
