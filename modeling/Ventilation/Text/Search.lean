/-!
Where one text occurs in another: the first place, the parts on both sides of it, and a text with
every occurrence taken out. And the names of a list in increasing order, each of them once.
-/

set_option autoImplicit false

namespace Ventilation.Text

/-- The parts before and after the first occurrence of `mark`. -/
def splitOnce (mark : List Char) : List Char → Option (List Char × List Char)
  | [] => if mark.isEmpty then some ([], []) else none
  | c :: cs =>
    match mark.isPrefixOf? (c :: cs) with
    | some rest => some ([], rest)
    | none => (splitOnce mark cs).map fun (before, after) => (c :: before, after)

/-- Whether `part` stands somewhere in the text. -/
def occurs (part cs : List Char) : Bool := (splitOnce part cs).isSome

/-- The text without the marks, taken out from left to right; `pending` characters of a mark are
still to be passed over. -/
def removeAllAfter (mark : List Char) (pending : Nat) : List Char → List Char
  | [] => []
  | c :: cs =>
    match pending with
    | pending + 1 => removeAllAfter mark pending cs
    | 0 =>
      if mark.isPrefixOf (c :: cs) then removeAllAfter mark (mark.length - 1) cs
      else c :: removeAllAfter mark 0 cs

/-- The text with every occurrence of `mark` taken out, from left to right. -/
def removeAll (mark cs : List Char) : List Char := removeAllAfter mark 0 cs

/-! Names -/

/-- Puts a name into an increasing list of names, unless it is there. -/
def insertName (name : String) : List String → List String
  | [] => [name]
  | other :: rest =>
    if name < other then name :: other :: rest
    else if name = other then other :: rest
    else other :: insertName name rest

/-- The different names of a list, increasing by code points. -/
def sortedNames (names : List String) : List String := names.foldr insertName []

end Ventilation.Text
