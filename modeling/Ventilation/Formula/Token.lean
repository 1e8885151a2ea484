import Ventilation.Number.Text
import Ventilation.Text.Quoted

/-!
The tokens of a formula, and how its text is cut into them: blanks are passed over, and each token
is taken as long as it goes. Cutting stops at the first character that begins no token; what comes
before it is kept, as a fault further on may never be reached.
-/

set_option autoImplicit false

namespace Ventilation.Formula

open Text

inductive Token where
  | number (value : Float)
  | identifier (name : String)
  /-- The name of another model, written in brackets. -/
  | model (name : String)
  | plus
  | minus
  | star
  | doubleStar
  | slash
  | doubleSlash
  | percent
  | comma
  | leftParen
  | rightParen
  deriving DecidableEq

/-- How an error names a token. -/
def Token.text : Token → String
  | number value => "Number(" ++ Binary64.text Binary64.quoted value ++ ")"
  | identifier name => "Identifier(" ++ quoted name ++ ")"
  | model name => "ModelRef(" ++ quoted name ++ ")"
  | plus => "Plus"
  | minus => "Minus"
  | star => "Star"
  | doubleStar => "DoubleStar"
  | slash => "Slash"
  | doubleSlash => "DoubleSlash"
  | percent => "Percent"
  | comma => "Comma"
  | leftParen => "LeftParen"
  | rightParen => "RightParen"

/-- Why a text is no formula. A missing token stands for the end of the text. -/
inductive ParseError where
  | tooLong (limit : Nat)
  | unexpectedCharacter (c : Char) (position : Nat)
  | invalidNumber (numeral : String)
  | unterminatedModel
  | emptyModel
  | tooDeep
  | unexpected (token : Option Token)
  | expected (token : Token) (found : Option Token)
  | trailing (token : Token)
  deriving DecidableEq

def tokenText (token : Option Token) : String := (token.map Token.text).getD "Eof"

def ParseError.message : ParseError → String
  | tooLong limit => "formula longer than " ++ toString limit ++ " characters"
  | unexpectedCharacter c position =>
    "Unexpected character '" ++ c.toString ++ "' at position " ++ toString position
  | invalidNumber numeral => "Invalid number '" ++ numeral ++ "'"
  | unterminatedModel => "Unterminated model reference"
  | emptyModel => "Empty model reference"
  | tooDeep => "formula nested too deeply"
  | unexpected token => "Unexpected token: " ++ tokenText token
  | expected token found => "Expected " ++ token.text ++ ", got " ++ tokenText found
  | trailing token => "Unexpected " ++ token.text ++ " after expression"

/-- How many digits stand at the front. -/
def digitCount (cs : List Char) : Nat := (cs.takeWhile Char.isDigit).length

/-- How many characters at the front are a point and the digits after it. -/
def fractionCount : List Char → Nat
  | '.' :: cs => 1 + digitCount cs
  | _ => 0

/-- How many characters at the front are an exponent; none unless it has a digit. -/
def exponentCount : List Char → Nat
  | c :: cs =>
    if c = 'e' ∨ c = 'E' then
      let signs := match cs with
        | '+' :: _ => 1
        | '-' :: _ => 1
        | _ => 0
      let digits := digitCount (cs.drop signs)
      if digits = 0 then 0 else 1 + signs + digits
    else 0
  | [] => 0

/-- How many characters at the front are a number. -/
def numeralCount (cs : List Char) : Nat :=
  let whole := digitCount cs
  let fraction := fractionCount (cs.drop whole)
  whole + fraction + exponentCount (cs.drop (whole + fraction))

def isIdentifierChar (c : Char) : Bool := c.isAlphanum || c = '_'

/-- A token and how many characters it takes after its first one. -/
structure Lexeme where
  token : Token
  more : Nat

/-- The number that begins with `c`. -/
def numberLexeme (c : Char) (cs : List Char) : Except ParseError Lexeme :=
  let more := numeralCount (c :: cs) - 1
  let numeral := c :: cs.take more
  match Binary64.read numeral with
  | some value => .ok ⟨.number value, more⟩
  | none => .error (.invalidNumber (String.ofList numeral))

/-- The model reference whose opening bracket was read. -/
def modelLexeme (cs : List Char) : Except ParseError Lexeme :=
  let body := cs.takeWhile (· ≠ ']')
  if body.length = cs.length then .error .unterminatedModel
  else if (trim body).isEmpty then .error .emptyModel
  else .ok ⟨.model (String.ofList (trim body)), body.length + 1⟩

/-- The token that begins with `c`, which stands `position` bytes after the start. -/
def lexeme (position : Nat) (c : Char) (cs : List Char) : Except ParseError Lexeme :=
  if c = '+' then .ok ⟨.plus, 0⟩
  else if c = '-' then .ok ⟨.minus, 0⟩
  else if c = '*' then .ok (if cs.head? = some '*' then ⟨.doubleStar, 1⟩ else ⟨.star, 0⟩)
  else if c = '/' then .ok (if cs.head? = some '/' then ⟨.doubleSlash, 1⟩ else ⟨.slash, 0⟩)
  else if c = '%' then .ok ⟨.percent, 0⟩
  else if c = ',' then .ok ⟨.comma, 0⟩
  else if c = '(' then .ok ⟨.leftParen, 0⟩
  else if c = ')' then .ok ⟨.rightParen, 0⟩
  else if c = '[' then modelLexeme cs
  else if c.isDigit || (c = '.' && cs.head?.any Char.isDigit) then numberLexeme c cs
  else if c.isAlpha || c = '_' then
    let name := cs.takeWhile isIdentifierChar
    .ok ⟨.identifier (String.ofList (c :: name)), name.length⟩
  else .error (.unexpectedCharacter c position)

/-- The tokens of a text, and what stopped it from being cut to its end. -/
structure Lexed where
  tokens : List Token
  fault : Option ParseError

def byteCount : List Char → Nat
  | [] => 0
  | c :: cs => c.utf8Size + byteCount cs

def lex (position : Nat) : List Char → Lexed
  | [] => ⟨[], none⟩
  | c :: cs =>
    if isBlank c then lex (position + c.utf8Size) cs
    else
      match lexeme position c cs with
      | .error fault => ⟨[], some fault⟩
      | .ok ⟨token, more⟩ =>
        let rest := lex (position + byteCount (c :: cs.take more)) (cs.drop more)
        ⟨token :: rest.tokens, rest.fault⟩
termination_by cs => cs.length
decreasing_by
  · simp
  · simp only [List.length_drop, List.length_cons]
    omega

end Ventilation.Formula
