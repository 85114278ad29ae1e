import Abacus.Parser.Memo

namespace Abacus

-- A watched attempt, by its label and its view.
structure Attempt where
  label : String
  pos : Nat
  stop : Nat
deriving DecidableEq, Repr

structure ParseState where
  memo : MemoTable := {}
  -- The latest attempt comes first.
  attempts : List Attempt := []

abbrev ParseM := StateT ParseState (Except Fault)

-- Failure is a match like any other; only a fault ends the run.
abbrev Parser := View → ParseM Match

namespace Parser

def always (value : Value) : Parser := fun input => Match.success value input.pos input

def never (complaint : Complaint) : Parser := fun input => pure (.failure input complaint)

-- Takes one character if it is suitable.
def satisfy (suits : Char → Bool) (expected : String) : Parser := fun input =>
  match input.next? with
  | none => pure (.failure input .endOfInput)
  | some (c, rest) =>
      if suits c then Match.success (.str (String.singleton c)) input.pos rest
      else pure (.failure input (.unsuitable c expected))

-- Succeeds where the parser fails, and takes nothing.
def notAhead (p : Parser) : Parser := fun input => do
  let result ← p input
  if result.failed then Match.success (.str "") input.pos input
  else
    return .failure input (.unexpected (input.take (result.rest.pos - input.pos)).text)

-- One parser, then another one on what is left.
def seq (p q : Parser) (combine : Combiner) : Parser := fun input => do
  let first ← p input
  if first.failed then return .rebase input first
  let second ← q first.rest
  if second.failed then return .rebase input second
  first.merge combine second

-- The second parser is tried where the first one fails.
def alt (p q : Parser) : Parser := fun input => do
  let first ← p input
  if first.failed then q input else return first

-- Two parsers on the same input. What is left is what the second one leaves.
def both (p q : Parser) (combine : Combiner) : Parser := fun input => do
  let first ← p input
  if first.failed then return .rebase input first
  let second ← q input
  if second.failed then return .rebase input second
  first.merge combine second

-- Fails unless the parser takes all of its input.
def complete (p : Parser) : Parser := fun input => do
  let result ← p input
  if result.failed || result.rest.isEmpty then return result
  return .failureAt input (.unconsumed result.rest.text) result.rest.pos

-- Changes a success.
def mapMatch (p : Parser) (change : Match → Except Fault Match) : Parser := fun input => do
  let result ← p input
  if result.failed then return result
  change result

-- Changes the payload of a success.
def mapValue (p : Parser) (change : Value → Except Fault Value) : Parser :=
  p.mapMatch fun result => do Match.success (← change result.value) result.start result.rest

-- Changes the complaint of a failure.
def reword (p : Parser) (change : Complaint → Complaint) : Parser := fun input => do
  let result ← p input
  if result.failed then return { result with complaint := change result.complaint }
  return result

-- Answers from the table, or else runs the parser and keeps its result.
def remember (rule : String) (p : Parser) : Parser := fun input => do
  let key := MemoKey.of rule input
  match (← get).memo[key]? with
  | some result => return result
  | none =>
      let result ← p input
      modifyThe ParseState fun state => { state with memo := state.memo.insert key result }
      return result

-- Logs the attempt before it is made.
def watch (label : String) (p : Parser) : Parser := fun input => do
  modifyThe ParseState fun state =>
    { state with attempts := ⟨label, input.pos, input.stop⟩ :: state.attempts }
  p input

end Parser

end Abacus
