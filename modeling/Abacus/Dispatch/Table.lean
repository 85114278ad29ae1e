import Abacus.Fault

namespace Abacus

-- An implementation, with what decides whether it may be registered: it must not depend on
-- surrounding variables, and takes the object and at least one argument. The last parameters may
-- be optional.
structure Method (α β : Type) where
  name : String
  capturesScope : Bool := false
  parameters : List String
  optional : Nat := 0
  run : α → List α → Except Fault β

-- The object counts as an argument, and more arguments than parameters are refused.
def Method.call {α β : Type} (m : Method α β) (argument : α) (more : List α) : Except Fault β :=
  let most := m.parameters.length
  let given := more.length + 2
  if most < given then .error (.tooManyArguments m.name (most - m.optional) most given)
  else m.run argument more

-- What is offered as an implementation.
inductive Offer (α β : Type)
  | method (m : Method α β)
  | uncallable (description : String)

inductive DispatchFault
  | keyCapturesScope
  | uncallable (description : String)
  | capturesScope (name : String)
  | tooFewParameters (name : String)
  | keyTaken
  | fault (cause : Fault)
deriving DecidableEq, Repr

namespace DispatchFault

def kind : DispatchFault → String
  | keyCapturesScope => "ValueError"
  | uncallable _ => "TypeError"
  | capturesScope _ => "ValueError"
  | tooFewParameters _ => "TypeError"
  | keyTaken => "DispatchKeyError"
  | fault cause => cause.kind

-- The words, where they do not depend on where an implementation is stored.
def message? : DispatchFault → Option String
  | uncallable description => some ("dispatched method is not callable: " ++ description)
  | fault cause => some cause.message
  | _ => none

end DispatchFault

def Offer.check {α β : Type} : Offer α β → Except DispatchFault (Method α β)
  | uncallable description => .error (.uncallable description)
  | method m =>
      if m.capturesScope then .error (.capturesScope m.name)
      else if m.parameters.length < 2 || m.parameters.head? ≠ some "self" then
        .error (.tooFewParameters m.name)
      else .ok m

-- Entries stand in the order in which they were registered.
structure DispatchTable (κ μ : Type) where
  entries : List (κ × μ) := []
  fallback : μ

namespace DispatchTable

variable {κ μ : Type} [BEq κ]

def get? (table : DispatchTable κ μ) (key : κ) : Option μ :=
  (table.entries.find? (·.1 == key)).map Prod.snd

def contains (table : DispatchTable κ μ) (key : κ) : Bool := (table.get? key).isSome

def lookup (table : DispatchTable κ μ) (key : κ) : μ := (table.get? key).getD table.fallback

-- The keys that go to the default.
def missing (table : DispatchTable κ μ) (keys : List κ) : List κ :=
  keys.filter fun key => !table.contains key

-- Keys are entered one by one, up to the first that is taken.
def insertAll (method : μ) :
    List κ → DispatchTable κ μ → Except DispatchFault Unit × DispatchTable κ μ
  | [], table => (.ok (), table)
  | key :: keys, table =>
      if table.contains key then (.error .keyTaken, table)
      else insertAll method keys { table with entries := table.entries ++ [(key, method)] }

end DispatchTable

end Abacus
