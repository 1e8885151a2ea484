import Ventilation.Number.Text
import Ventilation.Toml.Value

/-!
The simple values of a configuration document as they are written: strings in four forms, numbers
with underscores between digits, truth values, dates and times.
-/

set_option autoImplicit false

namespace Ventilation.Toml

/-- A reader takes something from the front of a text and returns it with the rest. -/
abbrev Reader (α : Type) := List Char → Option (α × List Char)

def isSpace (c : Char) : Bool := c = ' ' || c = '\t'

def skipSpaces (cs : List Char) : List Char := cs.dropWhile isSpace

/-- The rest after a line end. -/
def afterNewline? : List Char → Option (List Char)
  | '\n' :: rest => some rest
  | '\r' :: '\n' :: rest => some rest
  | _ => none

/-- A character that may stand in a comment or a string: no control other than the tab. -/
def isPlain (c : Char) : Bool := c = '\t' || 0x20 ≤ c.toNat && c.toNat ≠ 0x7F

/-- The rest of a comment's line. -/
def skipComment : Nat → List Char → Option (List Char)
  | 0, _ => none
  | fuel + 1, cs =>
    match cs with
    | [] => some []
    | c :: rest =>
      if (afterNewline? cs).isSome then some cs
      else if isPlain c then skipComment fuel rest
      else none

/-- Passes over spaces, and over a comment if there is one. -/
def skipToLineEnd (cs : List Char) : Option (List Char) :=
  match skipSpaces cs with
  | '#' :: rest => skipComment (rest.length + 1) rest
  | rest => some rest

/-- Passes over spaces, line ends and comments. -/
def skipLines : Nat → List Char → Option (List Char)
  | 0, cs => some cs
  | fuel + 1, cs =>
    match skipToLineEnd cs with
    | none => none
    | some rest =>
      match afterNewline? rest with
      | some rest => skipLines fuel rest
      | none => some rest

def isHexDigit (c : Char) : Bool :=
  c.isDigit || 'a' ≤ c && c ≤ 'f' || 'A' ≤ c && c ≤ 'F'

def digitValue (c : Char) : Nat :=
  if c.isDigit then c.toNat - 48 else c.toLower.toNat - 87

def valueOf (base : Nat) (digits : List Char) : Nat :=
  digits.foldl (fun n c => base * n + digitValue c) 0

/-- The character of so many hexadecimal digits. -/
def codePoint? (count : Nat) (cs : List Char) : Option (Char × List Char) :=
  let digits := cs.take count
  let n := valueOf 16 digits
  if digits.length = count && digits.all isHexDigit && n.isValidChar then
    some (Char.ofNat n, cs.drop count)
  else none

/-- The character of an escape, whose backslash was read. -/
def escaped? : Reader Char
  | 'b' :: rest => some ('\x08', rest)
  | 't' :: rest => some ('\t', rest)
  | 'n' :: rest => some ('\n', rest)
  | 'f' :: rest => some ('\x0c', rest)
  | 'r' :: rest => some ('\r', rest)
  | '"' :: rest => some ('"', rest)
  | '\\' :: rest => some ('\\', rest)
  | 'u' :: rest => codePoint? 4 rest
  | 'U' :: rest => codePoint? 8 rest
  | _ => none

/-- The characters of a string on one line up to its closing quote; with `escapes` a backslash
begins an escape. -/
def lineString (quote : Char) (escapes : Bool) : Nat → Reader (List Char)
  | 0, _ => none
  | fuel + 1, cs =>
    match cs with
    | [] => none
    | c :: rest =>
      if c = quote then some ([], rest)
      else if escapes && c = '\\' then
        (escaped? rest).bind fun (e, rest) =>
          (lineString quote escapes fuel rest).map fun (text, rest) => (e :: text, rest)
      else if isPlain c then
        (lineString quote escapes fuel rest).map fun (text, rest) => (c :: text, rest)
      else none

/-- Passes over spaces and line ends. -/
def skipBlankLines : List Char → List Char
  | '\r' :: '\n' :: rest => skipBlankLines rest
  | c :: rest => if isSpace c || c = '\n' then skipBlankLines rest else c :: rest
  | [] => []

/-- Passes over the line end after a backslash, and all blanks on the lines that follow. -/
def afterContinuation? (cs : List Char) : Option (List Char) :=
  (afterNewline? (skipSpaces cs)).map skipBlankLines

/-- The characters of a string over several lines. Three quotes close it; up to two more before them
belong to the text. -/
def blockString (quote : Char) (escapes : Bool) : Nat → Reader (List Char)
  | 0, _ => none
  | fuel + 1, cs =>
    match cs with
    | [] => none
    | c :: rest =>
      let quotes := (cs.takeWhile (· = quote)).length
      if 3 ≤ quotes then
        let used := min quotes 5
        some (List.replicate (used - 3) quote, cs.drop used)
      else
        match afterNewline? cs with
        | some rest => (blockString quote escapes fuel rest).map fun (t, rest) => ('\n' :: t, rest)
        | none =>
          if escapes && c = '\\' then
            match afterContinuation? rest with
            | some rest => blockString quote escapes fuel rest
            | none =>
              (escaped? rest).bind fun (e, rest) =>
                (blockString quote escapes fuel rest).map fun (t, rest) => (e :: t, rest)
          else if isPlain c then
            (blockString quote escapes fuel rest).map fun (t, rest) => (c :: t, rest)
          else none

/-- A string of any form. A line end right after three opening quotes is not part of it. -/
def string? (cs : List Char) : Option (String × List Char) :=
  let asText (r : Option (List Char × List Char)) : Option (String × List Char) :=
    r.map fun (text, rest) => (String.ofList text, rest)
  let block (quote : Char) (rest : List Char) : Option (String × List Char) :=
    asText (blockString quote (quote = '"') (rest.length + 1) ((afterNewline? rest).getD rest))
  match cs with
  | '"' :: '"' :: '"' :: rest => block '"' rest
  | '\'' :: '\'' :: '\'' :: rest => block '\'' rest
  | '"' :: rest => asText (lineString '"' true (rest.length + 1) rest)
  | '\'' :: rest => asText (lineString '\'' false (rest.length + 1) rest)
  | _ => none

/-- The digits that go on after a digit, with single underscores between them, and the rest. -/
def moreDigits (isDigit : Char → Bool) : List Char → List Char × List Char
  | [] => ([], [])
  | '_' :: d :: rest =>
    if isDigit d then
      let (digits, rest) := moreDigits isDigit rest
      (d :: digits, rest)
    else ([], '_' :: d :: rest)
  | c :: rest =>
    if isDigit c then
      let (digits, rest) := moreDigits isDigit rest
      (c :: digits, rest)
    else ([], c :: rest)

/-- Digits with single underscores between them; the underscores are left out. -/
def digitGroups (isDigit : Char → Bool) : Reader (List Char)
  | [] => none
  | c :: rest =>
    if isDigit c then
      let (digits, rest) := moreDigits isDigit rest
      some (c :: digits, rest)
    else none

def sign (cs : List Char) : Bool × List Char :=
  match cs with
  | '-' :: rest => (true, rest)
  | '+' :: rest => (false, rest)
  | _ => (false, cs)

/-- A whole number that 64 bits hold. -/
def integerValue? (negative : Bool) (n : Nat) : Option Value :=
  let n : Int := if negative then -n else n
  if -twoTo 63 ≤ n && n < twoTo 63 then some (.integer n) else none

/-- A number in another base. -/
def based? (base : Nat) (isDigit : Char → Bool) (cs : List Char) : Option Value :=
  match digitGroups isDigit cs with
  | some (digits, []) => integerValue? false (valueOf base digits)
  | _ => none

/-- The digits of a fraction after its point; none without a point. -/
def fraction? (cs : List Char) : Option (List Char × List Char) :=
  match cs with
  | '.' :: rest => digitGroups Char.isDigit rest
  | _ => some ([], cs)

def exponent? (cs : List Char) : Option Int :=
  match cs with
  | [] => some 0
  | c :: rest =>
    if c = 'e' || c = 'E' then
      let (negative, rest) := sign rest
      match digitGroups Char.isDigit rest with
      | some (digits, []) =>
        let n : Int := valueOf 10 digits
        some (if negative then -n else n)
      | _ => none
    else none

/-- A decimal number. It has no leading zeros, and what is beyond the largest number is none. -/
def decimal? (cs : List Char) : Option Value :=
  let (negative, cs) := sign cs
  match digitGroups Char.isDigit cs with
  | none => none
  | some (whole, rest) =>
    if 1 < whole.length && whole.head? = some '0' then none
    else if rest.isEmpty then integerValue? negative (valueOf 10 whole)
    else
      (fraction? rest).bind fun (fraction, rest) =>
        (exponent? rest).bind fun e =>
          let digits := valueOf 10 (whole ++ fraction)
          let x := Binary64.ofDecimal negative digits (e - fraction.length)
          if x == Binary64.infinity then none else some (.float x)

/-- So many digits with a value within bounds. -/
def digits? (count low high : Nat) (cs : List Char) : Option (List Char) :=
  let front := cs.take count
  if front.length = count && front.all Char.isDigit && low ≤ valueOf 10 front &&
      valueOf 10 front ≤ high then
    some (cs.drop count)
  else none

def mark? (c : Char) : List Char → Option (List Char)
  | d :: rest => if d = c then some rest else none
  | [] => none

/-- How many days a month has. -/
def monthDays (year month : Nat) : Nat :=
  if month = 2 then
    if year % 4 = 0 && (year % 100 ≠ 0 || year % 400 = 0) then 29 else 28
  else if month = 4 || month = 6 || month = 9 || month = 11 then 30
  else 31

/-- The rest after a date. -/
def date? (cs : List Char) : Option (List Char) := do
  let month ← mark? '-' (← digits? 4 0 9999 cs)
  let day ← mark? '-' (← digits? 2 1 12 month)
  digits? 2 1 (monthDays (valueOf 10 (cs.take 4)) (valueOf 10 (month.take 2))) day

/-- The rest after a time. -/
def time? (cs : List Char) : Option (List Char) := do
  let minute ← mark? ':' (← digits? 2 0 23 cs)
  let second ← mark? ':' (← digits? 2 0 59 minute)
  let rest ← digits? 2 0 60 second
  match rest with
  | '.' :: fraction =>
    if (fraction.head?).any Char.isDigit then some (fraction.dropWhile Char.isDigit) else none
  | rest => some rest

/-- Whether a text is the offset of a time, or nothing. -/
def isOffset (cs : List Char) : Bool :=
  match cs with
  | [] => true
  | ['Z'] => true
  | ['z'] => true
  | c :: rest =>
    (c = '+' || c = '-') &&
      ((digits? 2 0 23 rest).bind fun rest => (mark? ':' rest).bind (digits? 2 0 59)) == some []

/-- Whether a text is a time, or a date with a time and an offset or without. -/
def isDateTime (cs : List Char) : Bool :=
  match date? cs with
  | some [] => true
  | some (c :: rest) =>
    (c = 'T' || c = 't' || c = ' ') && (time? rest).any isOffset
  | none => time? cs == some []

def isBare (c : Char) : Bool :=
  c.isAlphanum || c = '_' || c = '+' || c = '-' || c = '.' || c = ':'

/-- A word without quotes; a date goes on over a space before a digit. -/
def bareWord (cs : List Char) : List Char × List Char :=
  let word := cs.takeWhile isBare
  match cs.dropWhile isBare with
  | ' ' :: d :: rest =>
    if date? word == some [] && d.isDigit then
      (word ++ ' ' :: (d :: rest).takeWhile isBare, (d :: rest).dropWhile isBare)
    else (word, ' ' :: d :: rest)
  | rest => (word, rest)

/-- The value of a word without quotes. -/
def bareValue? (cs : List Char) : Option Value :=
  if cs = "true".toList then some (.boolean true)
  else if cs = "false".toList then some (.boolean false)
  else if (sign cs).2 = "inf".toList then
    some (.float (if (sign cs).1 then -Binary64.infinity else Binary64.infinity))
  else if (sign cs).2 = "nan".toList then some (.float Binary64.notANumber)
  else
    match cs with
    | '0' :: 'x' :: rest => based? 16 isHexDigit rest
    | '0' :: 'o' :: rest => based? 8 (fun c => '0' ≤ c && c ≤ '7') rest
    | '0' :: 'b' :: rest => based? 2 (fun c => c = '0' || c = '1') rest
    | _ => if isDateTime cs then some .dateTime else decimal? cs

end Ventilation.Toml
