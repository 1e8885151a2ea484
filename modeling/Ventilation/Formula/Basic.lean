import Ventilation.Formula.Eval
import Ventilation.Formula.Parser
import Ventilation.Formula.Screen
import Ventilation.Text.Search

/-!
Formulas that passed the screen and were read: read once, evaluated as often as needed.
-/

set_option autoImplicit false

namespace Ventilation

structure Formula where
  source : String
  tree : Formula.Expr

namespace Formula

/-- Screens and reads the text of a formula. -/
def ofText? (text : String) : Except Error Formula := do
  screen text
  match parse text with
  | .ok tree => .ok ⟨Text.trimmed text, tree⟩
  | .error error => .error (.parse error)

/-- The variables of a formula, increasing. -/
def variableNames (f : Formula) : List String := Text.sortedNames f.tree.variableNames

/-- The models that a formula refers to, increasing. -/
def models (f : Formula) : List String := Text.sortedNames f.tree.models

def evaluate (f : Formula) (context : Context) : Except Error Float :=
  f.tree.evaluate context

/-- Screens, reads and evaluates a text. -/
def evaluateText (text : String) (context : Context) : Except Error Float := do
  let f ← ofText? text
  f.evaluate context

end Formula

end Ventilation
