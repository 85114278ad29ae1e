import Abacus.Parser.Repetition
import Abacus.Parser.Split

namespace Abacus

inductive RuleName
  -- An expression, where a comma may group the digits of a number.
  | expression
  -- An expression inside a call, where commas only separate arguments.
  | argument
  | arguments
  -- A rule beside those of the calculator.
  | named (name : String)
deriving DecidableEq, Repr

def RuleName.text : RuleName → String
  | expression => "expr"
  | argument => "arg_expr"
  | arguments => "arg_list"
  | named name => name

-- A description of a parser. It is data, so that what holds of every parser can be shown by
-- induction on it.
inductive Pattern
  | always (value : Value)
  | never (complaint : Complaint)
  | satisfy (suits : Char → Bool) (expected : String)
  | notAhead (p : Pattern)
  | seq (p q : Pattern) (combine : Combiner)
  | alt (p q : Pattern)
  | both (p q : Pattern) (combine : Combiner)
  | many1 (p : Pattern) (combine : Combiner)
  | manyTill (body stop : Pattern) (combine : Combiner)
  | complete (p : Pattern)
  | splitShortest (p q : Pattern) (combine : Combiner)
  | remember (rule : String) (p : Pattern)
  | mapMatch (p : Pattern) (change : Match → Except Fault Match)
  | mapValue (p : Pattern) (change : Value → Except Fault Value)
  | reword (p : Pattern) (change : Complaint → Complaint)
  | watch (label : String) (p : Pattern)
  | call (rule : RuleName)

namespace Pattern

-- What a pattern means, given the meaning of the rules.
def parser (rules : RuleName → Parser) : Pattern → View → ParseM Match
  | always value, input => Parser.always value input
  | never complaint, input => Parser.never complaint input
  | satisfy suits expected, input => Parser.satisfy suits expected input
  | notAhead p, input => Parser.notAhead (p.parser rules) input
  | seq p q combine, input => Parser.seq (p.parser rules) (q.parser rules) combine input
  | alt p q, input => Parser.alt (p.parser rules) (q.parser rules) input
  | both p q combine, input => Parser.both (p.parser rules) (q.parser rules) combine input
  | many1 p combine, input => Parser.many1 (p.parser rules) combine input
  | manyTill body stop combine, input =>
      Parser.manyTill (body.parser rules) (stop.parser rules) combine input
  | complete p, input => Parser.complete (p.parser rules) input
  | splitShortest p q combine, input =>
      Parser.splitShortest (p.parser rules) (q.parser rules) combine input
  | remember rule p, input => Parser.remember rule (p.parser rules) input
  | mapMatch p change, input => Parser.mapMatch (p.parser rules) change input
  | mapValue p change, input => Parser.mapValue (p.parser rules) change input
  | reword p change, input => Parser.reword (p.parser rules) change input
  | watch label p, input => Parser.watch label (p.parser rules) input
  | call rule, input => rules rule input

def optionally (p : Pattern) : Pattern := alt p (always (.str ""))

def many (p : Pattern) (combine : Combiner) : Pattern := optionally (many1 p combine)

def many1Till (body stop : Pattern) (combine : Combiner) : Pattern :=
  seq body (alt stop (manyTill body stop combine)) combine

-- Either parser, or both in a row.
def eitherOrBoth (p q : Pattern) (combine : Combiner) : Pattern := alt (seq p q combine) (alt p q)

def sequence (combine : Combiner) : List Pattern → Pattern
  | [] => never .emptySequence
  | [p] => p
  | p :: ps => seq p (sequence combine ps) combine

def sequenceKeeping : List Pattern → Int → Pattern
  | [], _ => never .emptySequence
  | [p], _ => p
  | p :: ps, index =>
      seq p (sequenceKeeping ps (index - 1)) (if index = 0 then Combiner.first else Combiner.second)

def firstOf : List Pattern → Pattern
  | [] => never .noAlternatives
  | [p] => p
  | p :: ps => alt p (firstOf ps)

def withValue (p : Pattern) (value : Value) : Pattern := p.mapValue fun _ => .ok value

theorem parser_sequence (rules : RuleName → Parser) (combine : Combiner) (ps : List Pattern) :
    (sequence combine ps).parser rules = Parser.sequence combine (ps.map (parser rules)) := by
  induction ps with
  | nil => rfl
  | cons p ps ih =>
    cases ps with
    | nil => rfl
    | cons q qs => funext input; simp [sequence, Parser.sequence, parser, ih]

theorem parser_sequenceKeeping (rules : RuleName → Parser) (ps : List Pattern) (index : Int) :
    (sequenceKeeping ps index).parser rules =
      Parser.sequenceKeeping (ps.map (parser rules)) index := by
  induction ps generalizing index with
  | nil => rfl
  | cons p ps ih =>
    cases ps with
    | nil => rfl
    | cons q qs => funext input; simp [sequenceKeeping, Parser.sequenceKeeping, parser, ih]

theorem parser_firstOf (rules : RuleName → Parser) (ps : List Pattern) :
    (firstOf ps).parser rules = Parser.firstOf (ps.map (parser rules)) := by
  induction ps with
  | nil => rfl
  | cons p ps ih =>
    cases ps with
    | nil => rfl
    | cons q qs => funext input; simp [firstOf, Parser.firstOf, parser, ih]

end Pattern

end Abacus
