import Abacus.Function.Builtin
import Abacus.Grammar.Basic
import Abacus.Tree.Evaluation

namespace Abacus

-- The grammar of the names in a registry, and the registry that can change no more.
def Registry.grammar {σ : Type} (registry : Registry σ) : Grammar × Registry σ :=
  (⟨registry.names⟩, registry.freeze)

-- A grammar is shown with the registry that it is made from.
def Registry.shownGrammar {σ : Type} (registry : Registry σ) : String :=
  "Grammar(" ++ registry.shown ++ ")"

-- A calculator has a registry of its own. Its grammar is made at the first parse and freezes the
-- registry, so functions have to be registered before.
structure Calculator where
  registry : Registry Dice
  grammar : Option Grammar := none
  dice : Dice

-- An operation keeps the calculator even where it fails.
abbrev CalculatorM := ExceptT Fault (StateM Calculator)

namespace Calculator

def fresh (dice : Dice) : Calculator := { registry := .standard, dice := dice }

def register (name : String) (closure : Closure Dice) : CalculatorM Unit := do
  let calculator ← get
  let registry ← (calculator.registry.register name closure : Except Fault _)
  set { calculator with registry := registry }

-- The one grammar of the calculator.
def theGrammar : CalculatorM Grammar := do
  let calculator ← get
  match calculator.grammar with
  | some grammar => return grammar
  | none =>
      let (grammar, registry) := calculator.registry.grammar
      set { calculator with registry := registry, grammar := some grammar }
      return grammar

def parse (text name : String) : CalculatorM Match := do
  ((← theGrammar).parse text name : Except Fault _)

-- The value of a tree and what was reported on the way.
def evaluateTree (tree : Value) : CalculatorM (Float × List Anomaly) := do
  if tree.isAbsent then throw .absentTree
  let calculator ← get
  let (value, evaluation) := calculator.registry.evaluate tree calculator.dice
  set { calculator with dice := evaluation.state }
  return (value, evaluation.reports)

-- The value of a parsed tree.
def evaluateMatch (result : Match) : CalculatorM (Float × List Anomaly) := do
  if result.failed then
    throw (.failedParse ("cannot evaluate a failed parse: " ++ result.complaint.text))
  evaluateTree result.value

-- Parses and evaluates. The diagnostic of a failed parse is the reason of the fault.
def calculate (text : String) : CalculatorM (Float × List Anomaly) := do
  let result ← parse text ""
  if result.failed then
    throw (.failedParse (← (result.diagnostic "" : Except Fault _)))
  evaluateMatch result

-- A report as a line of the error output.
def reportLine (anomaly : Anomaly) : String := "calc: " ++ anomaly.message ++ "\n"

end Calculator

end Abacus
