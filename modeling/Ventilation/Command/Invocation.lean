import Ventilation.Command.Arguments
import Ventilation.Number.Text
import Ventilation.Quote.Decimal

/-!
What a command line asks for: the files to work with, and one of four tasks.
-/

set_option autoImplicit false

namespace Ventilation.Command

structure PriceTask where
  model : String
  size : Option String
  finish : Option String
  damper : Bool
  specialColorMultiplier : Option Float
  breakdown : Bool

structure QuoteTask where
  code : String
  width : Option String
  height : Option String
  /-- The diameter of a round product. -/
  size : Option String
  /-- The unit of lengths without one. -/
  unit : String
  finish : Option String
  quantity : Nat
  discount : Decimal
  specialColorMultiplier : Option Float
  json : Bool

inductive Task where
  | models
  | finishes (model : String)
  | price (task : PriceTask)
  | quote (task : QuoteTask)

/-- A task with the paths of the price database and of the options. -/
structure Invocation where
  database : String
  config : Option String
  task : Task

/-- The options of every task, before its name or after it. -/
def commonOptions : List KnownOption := [⟨"db", none, true⟩, ⟨"config", none, true⟩]

def priceOptions : List KnownOption :=
  [⟨"size", some 's', true⟩, ⟨"finish", some 'f', true⟩, ⟨"damper", none, false⟩,
    ⟨"special-color-multiplier", none, true⟩, ⟨"breakdown", none, false⟩]

def quoteOptions : List KnownOption :=
  [⟨"width", none, true⟩, ⟨"height", none, true⟩, ⟨"size", none, true⟩, ⟨"unit", none, true⟩,
    ⟨"finish", some 'f', true⟩, ⟨"quantity", some 'q', true⟩, ⟨"discount", some 'd', true⟩,
    ⟨"special-color-multiplier", none, true⟩, ⟨"json", none, false⟩]

/-- A value that may be missing but not unreadable. -/
def optional? {α : Type} (read : String → Option α) : Option String → Option (Option α)
  | none => some none
  | some text => (read text).map some

/-- A whole number that 32 bits hold, with a sign or without. -/
def quantity? (text : String) : Option Nat :=
  let (negative, digits) : Bool × List Char :=
    match text.toList with
    | '-' :: rest => (true, rest)
    | '+' :: rest => (false, rest)
    | cs => (false, cs)
  let n := Nat.ofDigitChars 10 digits 0
  if digits.isEmpty || !digits.all Char.isDigit || (negative && n ≠ 0) || twoTo 32 ≤ n then none
  else some n

def multiplier? (line : Line) : Option (Option Float) :=
  optional? (fun text => Binary64.read text.toList) (line.value? "special-color-multiplier")

/-- Reads the task of a name with its arguments. -/
def Task.ofArguments? (name : String) (args : List String) : Option (Line × Task) :=
  let read (known : List KnownOption) : Option Line :=
    Line.read? (commonOptions ++ known) false .empty args
  match name with
  | "models" => do
    let line ← read []
    if line.words.isEmpty then some (line, .models) else none
  | "finishes" => do
    let line ← read []
    match line.words with
    | [model] => some (line, .finishes model)
    | _ => none
  | "price" => do
    let line ← read priceOptions
    let specialColorMultiplier ← multiplier? line
    match line.words with
    | [model] =>
      some (line, .price ⟨model, line.value? "size", line.value? "finish", line.has "damper",
        specialColorMultiplier, line.has "breakdown"⟩)
    | _ => none
  | "quote" => do
    let line ← read quoteOptions
    let specialColorMultiplier ← multiplier? line
    let quantity ← optional? quantity? (line.value? "quantity")
    let discount ← optional? Decimal.ofText? (line.value? "discount")
    match line.words with
    | [code] =>
      some (line, .quote ⟨code, line.value? "width", line.value? "height", line.value? "size",
        (line.value? "unit").getD "inches", line.value? "finish", quantity.getD 1,
        discount.getD (Decimal.ofInt 0), specialColorMultiplier, line.has "json"⟩)
    | _ => none
  | _ => none

/-- Paths are not empty. -/
def Line.pathsGiven (line : Line) : Bool :=
  line.value? "db" != some "" && line.value? "config" != some ""

/-- Reads a command line. A path after the name of the task counts before one in front of it. -/
def Invocation.ofArguments? (args : List String) : Option Invocation := do
  let outer ← Line.read? commonOptions true .empty args
  match outer.words with
  | [] => none
  | name :: args => do
    let (inner, task) ← Task.ofArguments? name args
    if outer.pathsGiven && inner.pathsGiven then
      let path (name : String) : Option String := (inner.value? name).or (outer.value? name)
      some ⟨(path "db").getD "prices.db", path "config", task⟩
    else none

end Ventilation.Command
