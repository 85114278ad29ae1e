import Abacus.Pattern.Basic

namespace Abacus

-- The rules of the calculator, and others by name. Of two with one name the later one counts.
structure Rules where
  expression : Pattern
  argument : Pattern
  arguments : Pattern
  named : List (String × Pattern)

namespace Rules

def body? (rules : Rules) : RuleName → Option Pattern
  | .expression => some rules.expression
  | .argument => some rules.argument
  | .arguments => some rules.arguments
  | .named name => (rules.named.reverse.find? (·.1 = name)).map Prod.snd

def count (rules : Rules) : Nat := rules.named.length + 3

-- A rule whose calls may nest to the given depth.
def runWithin (rules : Rules) : Nat → RuleName → Parser
  | 0, _ => Parser.stalled
  | depth + 1, name => fun input =>
      match rules.body? name with
      | none => throw (.unboundRule name.text)
      | some body => body.parser (rules.runWithin depth) input

-- A rule is never entered again on a view that it is still reading, and every view is part of the
-- view around it. So calls nest at most this deep, and the depth never cuts a parse short.
def depthFor (rules : Rules) (input : View) : Nat := rules.count * (input.size + 1)

def run (rules : Rules) (pattern : Pattern) : Parser := fun input =>
  pattern.parser (rules.runWithin (rules.depthFor input)) input

end Rules

end Abacus
