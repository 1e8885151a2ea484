import Ventilation.Number.Text

/-!
The syntax tree of a formula, the names that occur in it, and its text with every operation in
parentheses and its operator in front.
-/

set_option autoImplicit false

namespace Ventilation.Formula

inductive Sign where
  | negate
  | plus
  deriving DecidableEq, Repr

inductive Operator where
  | add
  | subtract
  | multiply
  | divide
  | floorDivide
  | modulo
  | power
  deriving DecidableEq, Repr

def Operator.symbol : Operator → String
  | add => "+"
  | subtract => "-"
  | multiply => "*"
  | divide => "/"
  | floorDivide => "//"
  | modulo => "%"
  | power => "**"

inductive Expr where
  | number (value : Float)
  | var (name : String)
  /-- The price of another model at the same size. -/
  | model (name : String)
  | sign (op : Sign) (operand : Expr)
  | binary (op : Operator) (left right : Expr)
  | call (function : String) (args : List Expr)

namespace Expr

mutual

/-- The variables of a tree, from left to right. -/
def variableNames : Expr → List String
  | number _ => []
  | var name => [name]
  | model _ => []
  | sign _ operand => operand.variableNames
  | binary _ left right => left.variableNames ++ right.variableNames
  | call _ args => variableNamesOf args

def variableNamesOf : List Expr → List String
  | [] => []
  | e :: es => e.variableNames ++ variableNamesOf es

end

mutual

/-- The models that a tree refers to, from left to right. -/
def models : Expr → List String
  | number _ => []
  | var _ => []
  | model name => [name]
  | sign _ operand => operand.models
  | binary _ left right => left.models ++ right.models
  | call _ args => modelsOf args

def modelsOf : List Expr → List String
  | [] => []
  | e :: es => e.models ++ modelsOf es

end

mutual

def treeText : Expr → String
  | number value => Binary64.display value
  | var name => name
  | model name => "[" ++ name ++ "]"
  | sign .negate operand => "(neg " ++ operand.treeText ++ ")"
  | sign .plus operand => "(pos " ++ operand.treeText ++ ")"
  | binary op left right =>
    "(" ++ op.symbol ++ " " ++ left.treeText ++ " " ++ right.treeText ++ ")"
  | call function args => "(call " ++ function ++ treeTextOf args ++ ")"

/-- The texts of several trees, each after a blank. -/
def treeTextOf : List Expr → String
  | [] => ""
  | e :: es => " " ++ e.treeText ++ treeTextOf es

end

end Expr

end Ventilation.Formula
