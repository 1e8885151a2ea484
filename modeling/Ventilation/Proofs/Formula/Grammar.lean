import Ventilation.Formula.Parser

/-!
# The grammar of formulas

Which token lists are phrases of which kind, and the tree that each one stands for. A phrase kind
takes the phrases for its signed operands as a parameter, so that `Unary room` admits just `room`
uses of itself within one another:

    sum      = term (("+" | "-") term)*
    term     = unary (("*" | "/" | "//" | "%") unary)*
    unary    = ("+" | "-") unary | power
    power    = primary ["**" unary]
    primary  = number | model | name | name "(" [sum ("," sum)*] ")" | "(" sum ")"
-/

set_option autoImplicit false
set_option relaxedAutoImplicit false

namespace Ventilation.Formula

/-- The token lists of one kind with their trees. -/
abbrev Phrase := List Token → Expr → Prop

inductive Additive : Token → Operator → Prop
  | plus : Additive .plus .add
  | minus : Additive .minus .subtract

inductive Multiplicative : Token → Operator → Prop
  | star : Multiplicative .star .multiply
  | slash : Multiplicative .slash .divide
  | doubleSlash : Multiplicative .doubleSlash .floorDivide
  | percent : Multiplicative .percent .modulo

inductive SignToken : Token → Sign → Prop
  | minus : SignToken .minus .negate
  | plus : SignToken .plus .plus

/-- Operands with operators of one level between them, which group to the left. -/
inductive LeftGrouped (operator : Token → Operator → Prop) (operand : Phrase) : Phrase
  | single {tokens : List Token} {tree : Expr} (h : operand tokens tree) :
    LeftGrouped operator operand tokens tree
  | more {tokens others : List Token} {left right : Expr} {token : Token} {op : Operator}
    (hleft : LeftGrouped operator operand tokens left) (hop : operator token op)
    (hright : operand others right) :
    LeftGrouped operator operand (tokens ++ token :: others) (.binary op left right)

def Term (unary : Phrase) : Phrase := LeftGrouped Multiplicative unary

def Sum (unary : Phrase) : Phrase := LeftGrouped Additive (Term unary)

/-- Phrases with commas between them. -/
inductive Listed (phrase : Phrase) : List Token → List Expr → Prop
  | single {tokens : List Token} {tree : Expr} (h : phrase tokens tree) :
    Listed phrase tokens [tree]
  | more {tokens others : List Token} {tree : Expr} {trees : List Expr} (h : phrase tokens tree)
    (hothers : Listed phrase others trees) :
    Listed phrase (tokens ++ .comma :: others) (tree :: trees)

/-- The names that stand for numbers. -/
inductive Constant : String → Float → Prop
  | pi : Constant "pi" 3.141592653589793
  | e : Constant "e" 2.718281828459045

inductive Primary (unary : Phrase) : Phrase
  | number (value : Float) : Primary unary [.number value] (.number value)
  | model (name : String) : Primary unary [.model name] (.model name)
  | constant {name : String} {value : Float} (h : Constant name value) :
    Primary unary [.identifier name] (.number value)
  | var {name : String} (h : ∀ value, ¬ Constant name value) :
    Primary unary [.identifier name] (.var name)
  | callEmpty (function : String) :
    Primary unary [.identifier function, .leftParen, .rightParen] (.call function [])
  | call (function : String) {tokens : List Token} {trees : List Expr}
    (h : Listed (Sum unary) tokens trees) :
    Primary unary (.identifier function :: .leftParen :: (tokens ++ [.rightParen]))
      (.call function trees)
  | group {tokens : List Token} {tree : Expr} (h : Sum unary tokens tree) :
    Primary unary (.leftParen :: (tokens ++ [.rightParen])) tree

inductive Power (unary : Phrase) : Phrase
  | primary {tokens : List Token} {tree : Expr} (h : Primary unary tokens tree) :
    Power unary tokens tree
  | raised {tokens others : List Token} {base exponent : Expr} (hbase : Primary unary tokens base)
    (hexponent : unary others exponent) :
    Power unary (tokens ++ .doubleStar :: others) (.binary .power base exponent)

inductive Signed (unary : Phrase) : Phrase
  | sign {tokens : List Token} {tree : Expr} {token : Token} {sign : Sign}
    (hsign : SignToken token sign) (h : unary tokens tree) :
    Signed unary (token :: tokens) (.sign sign tree)
  | power {tokens : List Token} {tree : Expr} (h : Power unary tokens tree) :
    Signed unary tokens tree

/-- Signed operands with at most `room` of them within one another. -/
def Unary : Nat → Phrase
  | 0 => fun _ _ => False
  | room + 1 => Signed (Unary room)

end Ventilation.Formula
