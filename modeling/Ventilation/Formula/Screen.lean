import Ventilation.Formula.Function
import Ventilation.Text.Search

/-!
The screen that a formula passes before it is read. Formulas come from imported tables, so whatever
looks like program text is rejected, in any letter case; then the parentheses have to pair up.
-/

set_option autoImplicit false

namespace Ventilation.Formula

open Text

/-- What a forbidden construct looks like anywhere in a text. -/
inductive Pattern where
  /-- A word and a blank after it. -/
  | spaced (text : String)
  | word (text : String)
  /-- A word, blanks and an opening parenthesis. -/
  | called (text : String)
  /-- One mark and another one somewhere after it. -/
  | around (first second : String)
  | oneOf (chars : List Char)

/-- Whether the word stands somewhere with `next` holding of what follows it. -/
def wordBefore (next : List Char → Bool) (word : List Char) : List Char → Bool
  | [] => false
  | c :: cs =>
    (match word.isPrefixOf? (c :: cs) with
      | some rest => next rest
      | none => false) || wordBefore next word cs

/-- Whether a text, its case folded, holds the pattern. -/
def Pattern.occursIn (p : Pattern) (cs : List Char) : Bool :=
  match p with
  | .spaced text => wordBefore (fun rest => rest.head?.any isBlank) text.toList cs
  | .word text => occurs text.toList cs
  | .called text => wordBefore (fun rest => (trimStart rest).head? = some '(') text.toList cs
  | .around first second =>
    match splitOnce first.toList cs with
    | some (_, rest) => occurs second.toList rest
    | none => false
  | .oneOf chars => cs.any chars.contains

/-- The functions that no formula may call. -/
def forbiddenCalls : List String :=
  ["exec", "eval", "open", "file", "input", "raw_input", "compile", "globals", "locals", "vars",
    "dir", "getattr", "setattr", "hasattr", "delattr"]

/-- The forbidden constructs in the order in which they are looked for. -/
def screenRules : List (Pattern × Forbidden) :=
  [(.spaced "import", .importStatement), (.spaced "from", .importStatement),
    (.word "__import__", .importName)] ++
  forbiddenCalls.map (fun name => (.called name, .call name)) ++
  [(.around "__" "__", .dunderName), (.around ".__" "__", .dunderAttribute),
    (.oneOf [';', '\n', '\r'], .separator), (.oneOf ['#'], .comment),
    (.around "\"\"\"" "\"\"\"", .tripleQuoted), (.around "'''" "'''", .tripleQuoted)]

/-- Whether no parenthesis closes too early and all of `depth` open ones are closed. -/
def balanced (depth : Nat) : List Char → Bool
  | [] => depth = 0
  | '(' :: cs => balanced (depth + 1) cs
  | ')' :: cs =>
    match depth with
    | 0 => false
    | depth + 1 => balanced depth cs
  | _ :: cs => balanced depth cs

/-- The first forbidden construct of a text. -/
def forbiddenIn? (cs : List Char) : Option Forbidden :=
  (screenRules.find? fun rule => rule.1.occursIn (cs.map foldCase)).map Prod.snd

def screen (text : String) : Except Error Unit :=
  match forbiddenIn? text.toList with
  | some construct => .error (.forbidden construct)
  | none => if balanced 0 text.toList then .ok () else .error .unbalanced

end Ventilation.Formula
