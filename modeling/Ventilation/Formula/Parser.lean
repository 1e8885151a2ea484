import Ventilation.Formula.Expr
import Ventilation.Formula.Function

/-!
Reading a syntax tree from tokens. `+ -` bind loosest, then `* / // %`, both grouping to the left,
then signs, then `**`, which groups to the right and takes a signed exponent. Signs, parentheses,
call arguments and exponents nest at most 64 deep; `room` counts what is left of that. A lexical
fault counts only when the reader steps onto it.
-/

set_option autoImplicit false

namespace Ventilation.Formula

/-- The greatest number of signs, parentheses, calls and exponents within one another. -/
def maxNesting : Nat := 64

/-- The greatest length of a formula, in bytes. -/
def maxLength : Nat := 1024

/-- A tree read from the front of `tokens`, and the tokens after it. -/
structure Parsed (tokens : List Token) where
  tree : Expr
  rest : List Token
  shorter : rest.length < tokens.length

/-- A tree that began before `tokens` and took some of them. -/
structure Extended (tokens : List Token) where
  tree : Expr
  rest : List Token
  notLonger : rest.length ≤ tokens.length

/-- Arguments read from the front of `tokens`. -/
structure Arguments (tokens : List Token) where
  trees : List Expr
  rest : List Token
  shorter : rest.length < tokens.length

abbrev Reader := (tokens : List Token) → Except ParseError (Parsed tokens)

section

/-! What stopped the text from being cut to its end. -/
variable (fault : Option ParseError)

/-- Steps onto `rest`, where a fault is met if no token is left before it. -/
def stepOnto (rest : List Token) : Except ParseError Unit :=
  match rest, fault with
  | [], some error => .error error
  | _, _ => .ok ()

/-- Goes on with operators of one level and their right operands, grouping to the left. -/
def chain (operator : Token → Option Operator) (operand : Reader) (left : Expr)
    (tokens : List Token) : Except ParseError (Extended tokens) :=
  match tokens with
  | [] => .ok ⟨left, [], Nat.le_refl _⟩
  | token :: rest =>
    match operator token with
    | none => .ok ⟨left, token :: rest, Nat.le_refl _⟩
    | some op => do
      stepOnto fault rest
      let right ← operand rest
      let whole ← chain operator operand (.binary op left right.tree) right.rest
      return ⟨whole.tree, whole.rest, by
        have := right.shorter
        have := whole.notLonger
        simp only [List.length_cons]
        omega⟩
termination_by tokens.length
decreasing_by
  have := right.shorter
  simp only [List.length_cons]
  omega

/-- Operands with operators of one level between them. -/
def level (operator : Token → Option Operator) (operand : Reader) : Reader := fun tokens => do
  let first ← operand tokens
  let whole ← chain fault operator operand first.tree first.rest
  return ⟨whole.tree, whole.rest, Nat.lt_of_le_of_lt whole.notLonger first.shorter⟩

def additive? : Token → Option Operator
  | .plus => some .add
  | .minus => some .subtract
  | _ => none

def multiplicative? : Token → Option Operator
  | .star => some .multiply
  | .slash => some .divide
  | .doubleSlash => some .floorDivide
  | .percent => some .modulo
  | _ => none

/-- An expression over the given signed operands. -/
def expression (unary : Reader) : Reader :=
  level fault additive? (level fault multiplicative? unary)

/-- A closing parenthesis after a tree of `tokens`. -/
def closed {tokens : List Token} (rest : List Token) (shorter : rest.length < tokens.length)
    (tree : Expr) : Except ParseError (Parsed tokens) :=
  match rest with
  | .rightParen :: after => do
    stepOnto fault after
    return ⟨tree, after, by
      simp only [List.length_cons] at shorter
      omega⟩
  | _ => .error (.expected .rightParen rest.head?)

/-- Expressions with commas between them. -/
def arguments (expr : Reader) (tokens : List Token) : Except ParseError (Arguments tokens) := do
  let first ← expr tokens
  match h : first.rest with
  | .comma :: rest => do
    stepOnto fault rest
    let others ← arguments expr rest
    return ⟨first.tree :: others.trees, others.rest, by
      have := first.shorter
      have := others.shorter
      simp only [h, List.length_cons] at *
      omega⟩
  | rest => return ⟨[first.tree], rest, h ▸ first.shorter⟩
termination_by tokens.length
decreasing_by
  have := first.shorter
  simp only [h, List.length_cons] at this
  omega

/-- The arguments of a call, whose opening parenthesis was read, and the closing one. -/
def call (expr : Reader) (function : String) : Reader := fun tokens =>
  match tokens with
  | .rightParen :: rest => do
    stepOnto fault rest
    return ⟨.call function [], rest, Nat.lt_succ_self _⟩
  | tokens => do
    let args ← arguments fault expr tokens
    closed fault args.rest args.shorter (.call function args.trees)

/-- A name alone: a constant or a variable. -/
def nameTree (name : String) : Expr :=
  match constant? name with
  | some value => .number value
  | none => .var name

/-- What a name stands for: a call if a parenthesis follows. -/
def named (unary : Reader) (name : String) (tokens : List Token) :
    Except ParseError (Extended tokens) :=
  match tokens with
  | .leftParen :: inner => do
    stepOnto fault inner
    let whole ← call fault (expression fault unary) name inner
    return ⟨whole.tree, whole.rest, Nat.le_of_lt (Nat.lt_succ_of_lt whole.shorter)⟩
  | tokens => return ⟨nameTree name, tokens, Nat.le_refl _⟩

/-- A number, a model, a name, a call or an expression in parentheses. -/
def primary (unary : Reader) : Reader := fun tokens =>
  match tokens with
  | .number value :: rest => do
    stepOnto fault rest
    return ⟨.number value, rest, Nat.lt_succ_self _⟩
  | .model name :: rest => do
    stepOnto fault rest
    return ⟨.model name, rest, Nat.lt_succ_self _⟩
  | .leftParen :: rest => do
    stepOnto fault rest
    let inner ← expression fault unary rest
    closed fault inner.rest (Nat.lt_succ_of_lt inner.shorter) inner.tree
  | .identifier name :: rest => do
    stepOnto fault rest
    let whole ← named fault unary name rest
    return ⟨whole.tree, whole.rest, Nat.lt_succ_of_le whole.notLonger⟩
  | tokens => .error (.unexpected tokens.head?)

/-- A primary expression and, after `**`, its exponent. -/
def power (unary : Reader) : Reader := fun tokens => do
  let base ← primary fault unary tokens
  match h : base.rest with
  | .doubleStar :: rest => do
    stepOnto fault rest
    let exponent ← unary rest
    return ⟨.binary .power base.tree exponent.tree, exponent.rest, by
      have := base.shorter
      have := exponent.shorter
      simp only [h, List.length_cons] at *
      omega⟩
  | _ => return base

/-- A sign and its operand. -/
def signed (unary : Reader) (sign : Sign) (rest : List Token) (token : Token) :
    Except ParseError (Parsed (token :: rest)) := do
  stepOnto fault rest
  let operand ← unary rest
  return ⟨.sign sign operand.tree, operand.rest, Nat.lt_succ_of_lt operand.shorter⟩

/-- A signed operand or a power, with room for so many more within one another. -/
def unary : Nat → Reader
  | 0 => fun _ => .error .tooDeep
  | room + 1 => fun tokens =>
    match tokens with
    | .minus :: rest => signed fault (unary room) .negate rest .minus
    | .plus :: rest => signed fault (unary room) .plus rest .plus
    | tokens => power fault (unary room) tokens

/-- The tree of all the tokens. -/
def parseTokens (tokens : List Token) : Except ParseError Expr := do
  stepOnto fault tokens
  let whole ← expression fault (unary fault maxNesting) tokens
  match whole.rest with
  | [] => return whole.tree
  | token :: _ => .error (.trailing token)

end

/-- Reads the syntax tree of a text, without screening it. -/
def parse (text : String) : Except ParseError Expr :=
  let cs := Text.trim text.toList
  if maxLength < byteCount cs then .error (.tooLong maxLength)
  else
    let lexed := lex 0 cs
    parseTokens lexed.fault lexed.tokens

end Ventilation.Formula
