import Ventilation.Toml.Scalar

/-!
Reading a configuration document: statements line by line, with arrays and tables in braces as
values. Values nest less than 80 deep, and a key has fewer than 80 parts.
-/

set_option autoImplicit false

namespace Ventilation.Toml

def depthLimit : Nat := 80

def isKeyChar (c : Char) : Bool := c.isAlphanum || c = '_' || c = '-'

/-- A key without dots: a word, or a string on one line. -/
def simpleKey? (cs : List Char) : Option (String × List Char) :=
  match cs with
  | '"' :: rest =>
    (lineString '"' true (rest.length + 1) rest).map fun (t, rest) => (String.ofList t, rest)
  | '\'' :: rest =>
    (lineString '\'' false (rest.length + 1) rest).map fun (t, rest) => (String.ofList t, rest)
  | _ =>
    let word := cs.takeWhile isKeyChar
    if word.isEmpty then none else some (String.ofList word, cs.dropWhile isKeyChar)

/-- The parts of a key before its last dot, and the part after it. -/
def keyParts? : Nat → Reader (List String × String)
  | 0, _ => none
  | fuel + 1, cs =>
    (simpleKey? (skipSpaces cs)).bind fun (key, rest) =>
      match skipSpaces rest with
      | '.' :: rest =>
        (keyParts? fuel rest).map fun ((path, last), rest) => ((key :: path, last), rest)
      | rest => some (([], key), rest)

/-- A key with dots. -/
def dottedKey? (cs : List Char) : Option ((List String × String) × List Char) :=
  (keyParts? (cs.length + 1) cs).bind fun ((path, key), rest) =>
    if path.length + 1 < depthLimit then some ((path, key), rest) else none

/-- A key, an equals sign and a value. -/
def pair? (value : Reader Value) (cs : List Char) : Option (Pair × List Char) :=
  (dottedKey? cs).bind fun ((path, key), rest) =>
    match rest with
    | '=' :: rest => (value (skipSpaces rest)).map fun (v, rest) => (⟨path, key, v⟩, rest)
    | _ => none

/-- The items of an array up to its closing bracket, with line ends and comments between them. -/
def items? (value : Reader Value) : Nat → Reader (List Value)
  | 0, _ => none
  | fuel + 1, cs =>
    (skipLines (cs.length + 1) cs).bind fun cs =>
      match cs with
      | ']' :: rest => some ([], rest)
      | cs =>
        (value cs).bind fun (v, rest) =>
          (skipLines (rest.length + 1) rest).bind fun rest =>
            match rest with
            | ',' :: rest => (items? value fuel rest).map fun (vs, rest) => (v :: vs, rest)
            | ']' :: rest => some ([v], rest)
            | _ => none

/-- The pairs of a table in braces up to its closing brace, all on one line. -/
def pairs? (value : Reader Value) : Nat → Reader (List Pair)
  | 0, _ => none
  | fuel + 1, cs =>
    (pair? value cs).bind fun (p, rest) =>
      match skipSpaces rest with
      | ',' :: rest => (pairs? value fuel rest).map fun (ps, rest) => (p :: ps, rest)
      | '\x7d' :: rest => some ([p], rest)
      | _ => none

/-- The value of a table in braces. -/
def inline? (pairs : List Pair) : Option Value :=
  (pairs.foldlM Body.insert .root).map fun body => .inline body.entries

/-- A value that holds no other values. -/
def simple? (cs : List Char) : Option (Value × List Char) :=
  match string? cs with
  | some (text, rest) => some (.string text, rest)
  | none =>
    let (word, rest) := bareWord cs
    (bareValue? word).map fun v => (v, rest)

/-- A value with so many levels of brackets and braces at most. -/
def value? : Nat → Reader Value
  | 0, cs => simple? cs
  | depth + 1, cs =>
    match cs with
    | '[' :: rest => (items? (value? depth) (rest.length + 1) rest).map fun (vs, rest) =>
      (.array vs, rest)
    | '\x7b' :: rest =>
      match skipSpaces rest with
      | '\x7d' :: rest => some (.inline [], rest)
      | _ =>
        (pairs? (value? depth) (rest.length + 1) rest).bind fun (ps, rest) =>
          (inline? ps).map fun v => (v, rest)
    | cs => simple? cs

/-- A heading after its opening brackets, with so many closing ones. -/
def heading? (brackets : Nat) (cs : List Char) : Option ((List String × String) × List Char) :=
  (dottedKey? cs).bind fun (name, rest) =>
    if rest.take brackets = List.replicate brackets ']' then some (name, rest.drop brackets)
    else none

def statement? (cs : List Char) : Option (Statement × List Char) :=
  match cs with
  | '[' :: '[' :: rest =>
    (heading? 2 rest).map fun ((path, key), rest) => (.itemHeading path key, rest)
  | '[' :: rest => (heading? 1 rest).map fun ((path, key), rest) => (.heading path key, rest)
  | _ => (pair? (value? (depthLimit - 1)) cs).map fun (p, rest) => (.pair p, rest)

/-- The statements of a document, each on a line of its own. -/
def statements? : Nat → List Char → Option (List Statement)
  | 0, _ => none
  | fuel + 1, cs =>
    (skipLines (cs.length + 1) cs).bind fun cs =>
      match cs with
      | [] => some []
      | cs =>
        (statement? cs).bind fun (s, rest) =>
          (skipToLineEnd rest).bind fun rest =>
            match rest, afterNewline? rest with
            | [], _ => some [s]
            | _, some rest => (statements? fuel rest).map (s :: ·)
            | _, none => none

/-- The entries of a document. -/
def document? (text : String) : Option Entries :=
  let cs := match text.toList with
    | c :: rest => if c.toNat = 0xFEFF then rest else c :: rest
    | [] => []
  (statements? (cs.length + 1) cs).bind ofStatements?

end Ventilation.Toml
