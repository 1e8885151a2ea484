import Ventilation.Number.Text

/-!
JSON documents laid out over lines, two spaces further in for each level. Empty lists stay on one
line, and numbers that are not finite are null.
-/

set_option autoImplicit false

namespace Ventilation

inductive JsonValue where
  | null
  | integer (n : Int)
  | number (x : Float)
  | string (text : String)
  | array (items : List JsonValue)
  | object (fields : List (String × JsonValue))

namespace JsonValue

def ofText? : Option String → JsonValue
  | some text => .string text
  | none => .null

/-- A character of a string: quotes, backslashes and controls are escaped. -/
def escapedChar (c : Char) : List Char :=
  if c = '"' then ['\\', '"']
  else if c = '\\' then ['\\', '\\']
  else if c = '\x08' then ['\\', 'b']
  else if c = '\x0c' then ['\\', 'f']
  else if c = '\n' then ['\\', 'n']
  else if c = '\r' then ['\\', 'r']
  else if c = '\t' then ['\\', 't']
  else if c.toNat < 0x20 then
    ['\\', 'u', '0', '0', Nat.digitChar (c.toNat / 16), Nat.digitChar (c.toNat % 16)]
  else [c]

def stringText (s : String) : String :=
  String.ofList ('"' :: s.toList.flatMap escapedChar ++ ['"'])

def numberText (x : Float) : String :=
  if x.isFinite then Binary64.text Binary64.json x else "null"

def indent (level : Nat) : String := String.ofList (List.replicate (2 * level) ' ')

/-- Lines between an opening and a closing bracket, each but the last with a comma. -/
def bracketed (opening closing : String) (level : Nat) (lines : List String) : String :=
  if lines.isEmpty then opening ++ closing
  else
    let inner := lines.map fun line => indent (level + 1) ++ line
    opening ++ "\n" ++ String.intercalate ",\n" inner ++ "\n" ++ indent level ++ closing

mutual

def textAt (level : Nat) : JsonValue → String
  | null => "null"
  | integer n => toString n
  | number x => numberText x
  | string text => stringText text
  | array items => bracketed "[" "]" level (itemTexts (level + 1) items)
  | object fields => bracketed "\x7b" "\x7d" level (fieldTexts (level + 1) fields)

def itemTexts (level : Nat) : List JsonValue → List String
  | [] => []
  | v :: rest => v.textAt level :: itemTexts level rest

def fieldTexts (level : Nat) : List (String × JsonValue) → List String
  | [] => []
  | (name, v) :: rest =>
    (stringText name ++ ": " ++ v.textAt level) :: fieldTexts level rest

end

def text (v : JsonValue) : String := v.textAt 0

end JsonValue

end Ventilation
