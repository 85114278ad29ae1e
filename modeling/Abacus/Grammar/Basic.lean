import Abacus.Decimal.Numeral
import Abacus.Pattern.Rules
import Abacus.Pattern.Text

namespace Abacus

-- The names that may be called, in the order in which they are tried.
structure Grammar where
  names : List String
deriving DecidableEq, Repr

namespace Grammar

open Pattern

-- An opening bracket and its partner.
def brackets : List (Char × Char) := [('(', ')'), ('[', ']'), ('{', '}')]

def allSpellings : List String := Operator.all.flatMap Operator.spellings

-- The spellings that begin with this one and go on.
def longerSpellings (spelling : String) : List String :=
  allSpellings.filter fun other =>
    spelling.toList.length < other.toList.length && spelling.toList.isPrefixOf other.toList

-- A spelling, unless a longer one stands there.
def spelledOperator (spelling : String) : Pattern :=
  match longerSpellings spelling with
  | [] => word spelling
  | longer => seq (notAhead (firstOf (longer.map word))) (word spelling) .second

def operatorPattern (operator : Operator) : Pattern :=
  sequenceKeeping [blanks, firstOf (operator.spellings.map spelledOperator), blanks] 1

def binary (rule : RuleName) (operator : Operator) : Pattern :=
  seq (splitShortest (call rule) (operatorPattern operator) .first) (call rule)
    fun left right => .ok (.binary operator left right)

def bracketed (inner : Pattern) (bracket : Char × Char) : Pattern :=
  sequenceKeeping [character bracket.1, blanks, inner, blanks, character bracket.2] 2

-- A list of arguments, or none where something else was read.
def orNoArguments (value : Value) : Value := if value.isArgument then value else .noArguments

def application (name : String) : Pattern :=
  let arguments := mapValue (optionally (call .arguments)) fun value => .ok (orNoArguments value)
  mapValue
    (sequenceKeeping
      [blanks, word name, blanks, firstOf (brackets.map (bracketed arguments)), blanks] 3)
    fun arguments => .ok (.call name arguments)

-- The number that digits, a point and grouping commas stand for.
def numberValue : Value → Except Fault Value
  | .str text =>
      let plain := String.ofList (text.toList.filter (· ≠ ','))
      match Decimal.readFloat? plain with
      | some x => .ok (.number x)
      | none => .error (.notNumber plain)
  | value => .error (.noComponent value.typeName "replace")

-- Digits with an optional fraction, or a fraction alone. With grouping, a comma may stand between
-- two digits of the whole part.
def numeral (grouping : Bool) : Pattern :=
  let furtherDigit := if grouping then alt digit (seq comma digit .joining) else digit
  let whole := seq digit (many furtherDigit .joining) .joining
  let fraction := seq point (many1 digit .joining) .joining
  reword (mapValue (eitherOrBoth whole fraction .joining) numberValue) fun complaint =>
    .framed "" complaint " (expected a number)"

-- There are no levels of precedence: an expression is the first that succeeds of the binary
-- operators, weakest first, then calls, groups and numbers. Each operator is looked for behind the
-- shortest left side, so a weak operator anywhere splits the text before a strong one is
-- considered, and operators of one kind group to the right.
def alternatives (grammar : Grammar) (rule : RuleName) (number : Pattern) : Pattern :=
  firstOf (Operator.all.map (binary rule) ++ grammar.names.map application
    ++ brackets.map (bracketed (call rule)) ++ [number])

def expressionBody (grammar : Grammar) : Pattern :=
  remember "expr" (grammar.alternatives .expression (numeral true))

def argumentBody (grammar : Grammar) : Pattern :=
  remember "arg_expr" (grammar.alternatives .argument (numeral false))

-- One argument, and more of them behind a comma.
def argumentsBody : Pattern :=
  seq (call .argument)
    (optionally (sequenceKeeping [blanks, comma, blanks, call .arguments] 3))
    fun first rest => .ok (.argument first (orNoArguments rest))

-- A whole text: an expression with blanks around it.
def wholeText : Pattern :=
  mapValue (complete (sequenceKeeping [blanks, call .expression, blanks] 1)) fun tree =>
    .ok (.root tree)

def rules (grammar : Grammar) : Rules where
  expression := grammar.expressionBody
  argument := grammar.argumentBody
  arguments := argumentsBody
  named := []

def parseSource (grammar : Grammar) (source : Source) : Except Fault (Match × ParseState) :=
  (grammar.rules.run wholeText (View.whole source)).run {}

def parse (grammar : Grammar) (text name : String) : Except Fault Match :=
  (grammar.parseSource (.of name text)).map Prod.fst

end Grammar

end Abacus
