import Ventilation.Text.Character
import Ventilation.Text.Search

/-!
Product codes: a model and its options as written on a quote, such as `ABC(WD)(INS)+F.Nylon`. The
two flags may also be written as one pair, `(WD,INS)`, in either order and any letter case, and may
stand after the filter.
-/

set_option autoImplicit false

namespace Ventilation

open Text

structure ProductCode where
  model : String
  withDamper : Bool
  /-- Whether an insect screen is ordered. -/
  accessory : Bool
  filter : Option String
  deriving DecidableEq, Repr

namespace ProductCode

def filterMark : List Char := ['+', 'F', '.']

def damperFlag : List Char := ['(', 'W', 'D', ')']

def screenFlag : List Char := ['(', 'I', 'N', 'S', ')']

def damperWord : List Char := ['w', 'd']

def screenWord : List Char := ['i', 'n', 's']

/-- The rest after a character, if it is there. -/
def skip (c : Char) : List Char → List Char
  | d :: cs => if d = c then cs else d :: cs
  | [] => []

/-- The rest after a word in any letter case. -/
def afterWord? (word cs : List Char) : Option (List Char) :=
  if (cs.take word.length).map foldCase = word then some (cs.drop word.length) else none

/-- Whether the text is a pair of words with a comma between them, blanks around each and
parentheses around the whole, either of which may be missing. -/
def isPair (first second cs : List Char) : Bool :=
  match afterWord? first (trimStart (skip '(' cs)) with
  | none => false
  | some rest =>
    match trimStart rest with
    | ',' :: rest =>
      match afterWord? second (trimStart rest) with
      | none => false
      | some rest => (skip ')' (trimStart rest)).isEmpty
    | _ => false

/-- What stands before the longest pair at the end of a text. -/
def beforePair? (first second : List Char) : List Char → Option (List Char)
  | [] => none
  | c :: cs =>
    if isPair first second (c :: cs) then some []
    else (beforePair? first second cs).map (c :: ·)

/-- What stands before a pair of both flags at the end of a text. -/
def beforeFlags? (cs : List Char) : Option (List Char) :=
  (beforePair? damperWord screenWord cs).or (beforePair? screenWord damperWord cs)

/-- The text with all occurrences of a flag taken out, and whether there were any. -/
def takeFlag (flag cs : List Char) : List Char × Bool :=
  if occurs flag cs then (trim (removeAll flag cs), true) else (cs, false)

/-- The model with its flags, and the filter: the text after the first filter mark up to a
parenthesis, from which on it belongs to the flags. -/
def splitFilter (cs : List Char) : List Char × Option (List Char) :=
  match splitOnce filterMark cs with
  | none => (cs, none)
  | some (head, tail) =>
    let tail := trim tail
    let name := tail.takeWhile (· ≠ '(')
    let flags := tail.dropWhile (· ≠ '(')
    (trim head ++ flags, some (if flags.isEmpty then name else trim name))

/-- Splits a product code into model and options. -/
def ofText (text : String) : ProductCode :=
  let (flagged, filter) := splitFilter (trim text.toList)
  let filter := (filter.filter fun f => !f.isEmpty).map String.ofList
  match beforeFlags? flagged with
  | some model => ⟨String.ofList (trim model), true, true, filter⟩
  | none =>
    let (rest, accessory) := takeFlag screenFlag flagged
    let (model, withDamper) := takeFlag damperFlag rest
    ⟨String.ofList model, withDamper, accessory, filter⟩

def text (code : ProductCode) : String :=
  code.model ++ (if code.withDamper then "(WD)" else "") ++
    (if code.accessory then "(INS)" else "") ++
    (match code.filter with
      | some name => "+F." ++ name
      | none => "")

/-- The digits that a model name begins with. -/
def slotNumber? (model : String) : Option String :=
  let digits := (trim model.toList).takeWhile isDecimalDigit
  if digits.isEmpty then none else some (String.ofList digits)

end ProductCode

end Ventilation
