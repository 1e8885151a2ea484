import Ventilation.Command.Invocation
import Ventilation.Command.Price
import Ventilation.Pricing.Config
import Ventilation.Quote.Report

/-!
Running a command line over a set of files. All answers go to the standard output; the reason why
there is none goes to the standard error, after `N/A:`.
-/

set_option autoImplicit false

namespace Ventilation.Command

/-- What a run leaves: its exit code, and what was written to its two outputs. -/
structure Outcome where
  code : Nat
  stdout : String
  stderr : String
  deriving DecidableEq, Repr

/-- The files within reach, by path. -/
structure Files where
  catalog? : String → Option (Catalog Float)
  text? : String → Option String

/-- Why a run fails. -/
inductive Failure where
  | options (path : String) (error : ConfigError)
  | database (path : String) (error : OpenError)
  | request (error : RequestError)

/-- The wording for options that cannot be loaded. -/
def optionsText (path : String) (error : ConfigError) : String :=
  match error with
  | .unreadable => error.message ++ " " ++ path ++ ": No such file or directory (os error 2)"
  | error => error.message

/-- The wording for a database that cannot be opened. -/
def openText (path : String) : OpenError → String
  | .config error => error.message
  | .catalog _ =>
    let cause := "unable to open database file: " ++ path
    "cannot open price database " ++ path ++ ": " ++ cause ++ ": " ++ cause ++
      ": Error code 14: Unable to open the database file"

def Failure.reason : Failure → String
  | options path error =>
    "Failed to load options from '" ++ path ++ "': " ++ optionsText path error
  | database path error =>
    "Failed to open price database '" ++ path ++ "': " ++ openText path error
  | request error => error.reason

/-- The wording of an overflow, if that is the failure. -/
def Failure.overflow? : Failure → Option String
  | request error => error.overflow?
  | _ => none

def unlines (lines : List String) : String := String.join (lines.map fun line => line ++ "\n")

def usage : String :=
  unlines [
    "Usage: ventilation [--db PATH] [--config PATH] COMMAND",
    "",
    "  models",
    "  finishes MODEL",
    "  price MODEL [-s SIZE] [-f FINISH] [--damper] [--special-color-multiplier NUMBER]",
    "    [--breakdown]",
    "  quote CODE [--width LENGTH] [--height LENGTH] [--size LENGTH] [--unit UNIT] [-f FINISH]",
    "    [-q QUANTITY] [-d PERCENT] [--special-color-multiplier NUMBER] [--json]"]

/-- Arguments that cannot be read exit with code 2. -/
def Outcome.ofUsage : Outcome := ⟨2, "", usage⟩

/-- A failure exits with code 1, an overflow of amounts or ids with code 101. -/
def Outcome.ofFailure (failure : Failure) : Outcome :=
  match failure.overflow? with
  | some text => ⟨101, "", unlines [text]⟩
  | none => ⟨1, "", unlines ["N/A: " ++ failure.reason]⟩

def Outcome.ofLines (lines notices : List String) : Outcome := ⟨0, unlines lines, unlines notices⟩

def PriceTask.item (t : PriceTask) : ItemOptions :=
  ⟨t.finish.map Finish.ofName, t.damper, t.specialColorMultiplier⟩

def breakdownLine (b : PriceBreakdown) : String :=
  "TB " ++ Binary64.display b.tb ++ "  WD " ++ Binary64.display b.wd ++ "  BP " ++
    Binary64.display b.bp ++ "  MWD " ++ Binary64.display b.mwd ++ "  surcharge " ++
    Binary64.display b.surcharge

def PriceTask.run (t : PriceTask) (e : Engine) : Except RequestError Outcome := do
  let b ← priceOfText e t.model t.item t.size
  let detail := if t.breakdown then [breakdownLine b] else []
  return .ofLines (detail ++ [toString b.price]) []

/-- The size of a quote line. A diameter goes before sides, and a height may stand alone. -/
def QuoteTask.dimensions (t : QuoteTask) (unit : LengthUnit) :
    Except RequestError QuoteDimensions := do
  let length (text : String) : Except RequestError Length := measured (Length.ofText? text unit)
  match t.width, t.height, t.size with
  | _, _, some size => return .diameter (← length size)
  | some width, some height, none => do
    let width ← length width
    return .rectangular width (← length height)
  | none, some height, none => return .height (← length height)
  | some _, none, none => .error .heightRequired
  | none, none, none => return .none

def QuoteTask.request (t : QuoteTask) : Except RequestError QuoteRequest := do
  let unit ← measured (LengthUnit.ofToken? t.unit)
  let dimensions ← t.dimensions unit
  return ⟨ProductCode.ofText t.code, t.finish.map Finish.ofName, t.quantity, t.discount,
    t.specialColorMultiplier, dimensions⟩

def QuoteTask.run (t : QuoteTask) (e : Engine) : Except RequestError Outcome := do
  let request ← t.request
  match e.quote request with
  | .error error => .error (.quote error)
  | .ok item =>
    return if t.json then .ofLines [item.json.text] [] else .ofLines item.lines item.notices

def Task.run (e : Engine) : Task → Except RequestError Outcome
  | .models => (priced (fromCatalog e.catalog.models)).map fun models => .ofLines models []
  | .finishes model => (priced (e.availableFinishes model)).map fun names => .ofLines names []
  | .price task => task.run e
  | .quote task => task.run e

/-- The options of a file, or the usual ones. -/
def loadOptions (files : Files) : Option String → Except Failure EngineOptions
  | none => .ok .standard
  | some path => (Config.ofFile? (files.text? path)).mapError (.options path)

def Invocation.run (files : Files) (i : Invocation) : Except Failure Outcome := do
  let options ← loadOptions files i.config
  let engine ← (Engine.ofFile (files.catalog? i.database) options).mapError
    (.database i.database)
  (i.task.run engine).mapError .request

/-- Runs a command line. -/
def run (files : Files) (args : List String) : Outcome :=
  match Invocation.ofArguments? args with
  | none => .ofUsage
  | some i =>
    match i.run files with
    | .ok outcome => outcome
    | .error failure => .ofFailure failure

end Ventilation.Command
