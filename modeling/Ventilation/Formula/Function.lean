import Ventilation.Formula.Token
import Ventilation.Number.Elementary
import Ventilation.Number.Scalar

/-!
The functions and constants a formula may use, and what can go wrong with a formula. Nothing but
these functions can be called.
-/

set_option autoImplicit false

namespace Ventilation.Formula

/-- A construct that the screen for formulas rejects. -/
inductive Forbidden where
  | importStatement
  | importName
  | call (name : String)
  | dunderName
  | dunderAttribute
  | separator
  | comment
  | tripleQuoted
  deriving DecidableEq, Repr

def Forbidden.text : Forbidden → String
  | importStatement => "import statement"
  | importName => "__import__"
  | call name => "call to " ++ name
  | dunderName => "dunder name"
  | dunderAttribute => "dunder attribute"
  | separator => "statement separator"
  | comment => "comment"
  | tripleQuoted => "triple-quoted block"

/-- What is wrong with an argument of a function. -/
inductive ArgumentError where
  | missing (function : String) (index : Nat)
  | nothing (function : String)
  | fractionalDigits
  deriving DecidableEq, Repr

def ArgumentError.message : ArgumentError → String
  | missing function index => function ++ " is missing argument " ++ toString index
  | nothing function => function ++ " of nothing"
  | fractionalDigits => "round digits must be an integer"

/-- How many arguments a function takes; without `most` there is no upper limit. -/
structure Arity where
  least : Nat
  most : Option Nat
  deriving DecidableEq, Repr

def Arity.admits (a : Arity) (count : Nat) : Bool :=
  a.least ≤ count && a.most.all fun most => count ≤ most

def Arity.text (a : Arity) : String :=
  match a.most with
  | some most =>
    if most = a.least then toString most else toString a.least ++ " to " ++ toString most
  | none => "at least " ++ toString a.least

/-- Why a formula is refused, or has no value. -/
inductive Error where
  | forbidden (construct : Forbidden)
  | unbalanced
  | parse (error : ParseError)
  | unknownVariable (name : String)
  | unknownFunction (name : String)
  | argumentCount (function : String) (arity : Arity) (actual : Nat)
  | argument (error : ArgumentError)
  | unresolvedModel (name : String)
  | divisionByZero
  | domain (operation : String)
  | notFinite
  deriving DecidableEq

def Error.message : Error → String
  | forbidden construct => "Unsafe formula: " ++ construct.text
  | unbalanced => "Unbalanced parentheses"
  | parse error => "Parse error: " ++ error.message
  | unknownVariable name => "Unknown variable: " ++ name
  | unknownFunction name => "Unknown function: " ++ name
  | argumentCount function arity actual =>
    "Wrong number of arguments for " ++ function ++ ": expected " ++ arity.text ++ ", got " ++
      toString actual
  | argument error => "Invalid argument: " ++ error.message
  | unresolvedModel name => "Unresolved model reference: [" ++ name ++ "]"
  | divisionByZero => "Division by zero"
  | domain operation => "Math domain error in " ++ operation
  | notFinite => "Result is not a finite number"

inductive Function where
  | sqrt
  | pow
  | ceil
  | floor
  | abs
  | round
  | min
  | max
  | sin
  | cos
  | tan
  | log
  | log10
  | exp
  deriving DecidableEq, Repr

namespace Function

def all : List Function :=
  [sqrt, pow, ceil, floor, abs, round, min, max, sin, cos, tan, log, log10, exp]

def name : Function → String
  | sqrt => "sqrt"
  | pow => "pow"
  | ceil => "ceil"
  | floor => "floor"
  | abs => "abs"
  | round => "round"
  | min => "min"
  | max => "max"
  | sin => "sin"
  | cos => "cos"
  | tan => "tan"
  | log => "log"
  | log10 => "log10"
  | exp => "exp"

/-- The function of a name, in exactly this letter case. -/
def ofName? (name : String) : Option Function := all.find? fun f => f.name = name

def arity : Function → Arity
  | pow => ⟨2, some 2⟩
  | round | log => ⟨1, some 2⟩
  | min | max => ⟨2, none⟩
  | _ => ⟨1, some 1⟩

def checkArity (f : Function) (count : Nat) : Except Error Unit :=
  if f.arity.admits count then .ok () else .error (.argumentCount f.name f.arity count)

/-- A value, unless it is no number. -/
def inDomain (operation : String) (value : Float) : Except Error Float :=
  if value.isNaN then .error (.domain operation) else .ok value

/-- The argument at `index`, counted from 1. -/
def argument (f : Function) (args : List Float) (index : Nat) : Except Error Float :=
  match args[index - 1]? with
  | some x => .ok x
  | none => .error (.argument (.missing f.name index))

def power (base exponent : Float) : Except Error Float :=
  if base == 0 && exponent < 0 then .error (.domain "pow")
  else inDomain "pow" (Binary64.pow base exponent)

/-- Rounds half to even, at a number of decimals if one is given. -/
def roundAt (x : Float) (digits : Option Float) : Except Error Float :=
  match digits with
  | none => .ok (Scalar.roundHalfEven x)
  | some digits =>
    if Binary64.fract digits != 0 then .error (.argument .fractionalDigits)
    else
      let scale := Binary64.wholePower 10 (Binary64.toInt32 digits)
      .ok (Scalar.roundHalfEven (x * scale) / scale)

/-- The natural logarithm, or the one to a base if one is given. -/
def logarithm (x : Float) (base : Option Float) : Except Error Float :=
  if x ≤ 0 then .error (.domain "log")
  else
    match base with
    | none => .ok x.log
    | some base =>
      if base ≤ 0 then .error (.domain "log")
      else if base == 1 then .error .divisionByZero
      else .ok (x.log / base.log)

/-- The choice among all arguments. -/
def choose (f : Function) (better : Float → Float → Float) (args : List Float) :
    Except Error Float :=
  match args with
  | [] => .error (.argument (.nothing f.name))
  | x :: rest => .ok (rest.foldl better x)

/-- The value of a function. Arguments beyond those it takes are passed over. -/
def apply (f : Function) (args : List Float) : Except Error Float :=
  match f with
  | min => f.choose Scalar.smaller args
  | max => f.choose Scalar.larger args
  | _ => do
    let x ← f.argument args 1
    match f with
    | sqrt => if x < 0 then .error (.domain "sqrt") else .ok x.sqrt
    | pow => do
      let exponent ← f.argument args 2
      power x exponent
    | ceil => .ok (Binary64.ceil x)
    | floor => .ok (Binary64.floor x)
    | abs => .ok x.abs
    | round => roundAt x args[1]?
    | sin => inDomain "sin" (Binary64.sin x)
    | cos => inDomain "cos" (Binary64.cos x)
    | tan => inDomain "tan" (Binary64.tan x)
    | log => logarithm x args[1]?
    | log10 => if x ≤ 0 then .error (.domain "log10") else .ok x.log10
    | exp => .ok (Binary64.exp x)
    | min | max => .ok x

end Function

/-- The value of a named constant. -/
def constant? (name : String) : Option Float :=
  if name = "pi" then some 3.141592653589793
  else if name = "e" then some 2.718281828459045
  else none

end Ventilation.Formula
