import Abacus.Calculator
import Abacus.Command.Arguments
import Abacus.Tree.Listing

namespace Abacus.Command

structure Outcome where
  status : Nat := 0
  output : String := ""
  errors : String := ""
deriving DecidableEq, Repr

def usage : String := "usage: calc [-h] [-tree] [-name NAME] [-seed SEED] expr [expr ...]\n"

def help : String :=
  usage ++ "\nEvaluate an arithmetic expression.\n"
    ++ "\npositional arguments:\n"
    ++ "  expr        The expression; multiple arguments are joined with spaces.\n"
    ++ "\noptions:\n"
    ++ "  -h, --help  show this help message and exit\n"
    ++ "  -tree       Print the parse tree skeleton before the result.\n"
    ++ "  -name NAME  Source name used in diagnostics.\n"
    ++ "  -seed SEED  Seed for the `rand` function.\n"

-- The shape of the tree, if asked for, and the value.
def calculate (options : Options) (dice : Dice) : Except Fault Outcome := do
  let (grammar, registry) := Registry.standard.grammar
  let result ← grammar.parse (" ".intercalate options.words) options.name
  if result.failed then
    return { status := 1, errors := ← result.diagnostic "calc error" }
  let (value, evaluation) := registry.evaluate result.value dice
  let tree := if options.showsTree then Layout.paragraph {} [] result.value.skeleton else ""
  return {
    output := tree ++ showFloat value ++ "\n"
    errors := String.join (evaluation.reports.map Calculator.reportLine) }

-- Without a seed the given dice are used.
def run (arguments : List String) (dice : Dice) : Outcome :=
  match Request.ofArguments arguments with
  | .error error => { status := 2, errors := usage ++ "calc: error: " ++ error.message ++ "\n" }
  | .ok .help => { output := help }
  | .ok (.calculate options) =>
      let dice := (options.seed.map Dice.ofSeed).getD dice
      match calculate options dice with
      | .ok outcome => outcome
      | .error fault => { status := 1, errors := fault.message ++ "\n" }

end Abacus.Command
