import Abacus.Trial.Signature

namespace Abacus.Trial

-- How many tests ran, and how many of them failed.
structure Tally where
  tests : Nat := 0
  failures : Nat := 0
deriving DecidableEq, Repr

-- The failure that a test expects.
inductive Expected
  -- Any failure of a kind.
  | kind (kind : String)
  -- A failure with its payload.
  | exactly (raised : Raised)
  -- A failure by its text.
  | text (text : String)

namespace Expected

def shown : Expected → String
  | kind name => "<class " ++ Text.quoted name ++ ">"
  | exactly failure => failure.shown
  | text words => Text.quoted words

def accepts (raised : Raised) : Expected → Bool
  | kind name => isKind raised.kind name
  | exactly failure => raised.kind = failure.kind && failure.payload.same raised.payload
  | text words => words = raised.shown

end Expected

-- What a call came to.
inductive Result
  | returned (label : String) (value : Value)
  | raised (failure : Raised)

def Result.line : Result → String
  | returned label value => "  returned " ++ label ++ ": " ++ value.shown
  | raised failure => "  raised exception:   " ++ failure.shown

def argumentLines (arguments : List Value) (named : Named) : List String :=
  (arguments.zipIdx.map fun (value, index) => "  arg " ++ toString index ++ " = " ++ value.shown)
    ++ named.map fun (name, value) => "  arg " ++ name ++ " = " ++ value.shown

-- The description of a failed test, with a blank line behind it.
def failureText (name label expected : String) (arguments : List Value) (named : Named)
    (result : Result) : String :=
  "\n".intercalate
    (["utest failure: " ++ name] ++ argumentLines arguments named
      ++ ["  expected " ++ label ++ ": " ++ expected, result.line]) ++ "\n\n"

-- Whether two numbers lie within a tolerance of each other.
def isNear (relative absolute a b : Float) : Bool :=
  if a == b then true
  else if a.isInf || b.isInf then false
  else
    let distance := (b - a).abs
    distance ≤ (relative * b).abs || distance ≤ (relative * a).abs || distance ≤ absolute

def number? : Value → Except Fault (Option Float)
  | .float x => .ok (some x)
  | .int n => (Value.floatOfInt n).map some
  | .bool b => .ok (some (if b then 1 else 0))
  | _ => .ok none

-- NaN is near NaN, and what is no number is near nothing.
def areNear (relative absolute expected actual : Value) : Except Fault Bool := do
  let some a ← number? expected | return false
  let some b ← number? actual | return false
  if a.isNaN && b.isNaN then return true
  let some relative ← number? relative | return false
  let some absolute ← number? absolute | return false
  if relative < 0 || absolute < 0 then
    throw (.raised "ValueError" "tolerances must be non-negative")
  return isNear relative absolute a b

-- A named argument, or a value in its place, and the other named arguments.
def takeNamed (named : Named) (name : String) (otherwise : Value) : Value × Named :=
  (((named.find? (·.1 = name)).map Prod.snd).getD otherwise, named.filter (·.1 ≠ name))

-- What is asked of a call.
inductive Check
  | value (expected : Value)
  | near (expected : Value)
  | items (expected : Value)
  | raised (expected : Expected)

namespace Check

def name : Check → String
  | value _ => "utest"
  | near _ => "utest_approx"
  | items _ => "utest_seq"
  | raised _ => "utest_exc"

-- The parameters of the check itself that are given by their places.
def placed : Check → List String
  | value _ | near _ => ["exp", "fn"]
  | items _ => ["exp_seq", "fn"]
  | raised _ => ["exp_exc", "fn"]

-- The named arguments that the check hands on. None may have the name of a parameter that is given
-- by its place, and the depth of the report is for the check itself.
def handOn (check : Check) (named : Named) : Except Fault Named :=
  match named.find? fun (name, _) => check.placed.contains name with
  | some (name, _) => .error (.repeatedArgument check.name name)
  | none => .ok (named.filter (·.1 ≠ "_utest_depth"))

end Check

-- The items of what a call returns, which has to be something to walk over.
def itemsOf (outcome : Except Raised Value) : Except Raised Value :=
  outcome.bind fun value =>
    match value.items with
    | .ok items => .ok (.list items)
    | .error fault => .error (.ofFault fault)

-- A test is counted even where its comparison fails, and answers with what it prints.
abbrev TallyM := ExceptT Fault (StateM Tally)

namespace Tally

def pass : TallyM String := do
  modify fun tally => { tally with tests := tally.tests + 1 }
  return ""

def fail (text : String) : TallyM String := do
  modify fun tally => ⟨tally.tests + 1, tally.failures + 1⟩
  return text

-- A test passes if the call returns a value that is accepted.
def check (label returnedLabel : String) (expected : Value) (accepts : Value → Except Fault Bool)
    (subject : Subject) (outcome : Except Raised Value) (arguments : List Value) (named : Named) :
    TallyM String :=
  let describe := failureText subject.name label expected.shown arguments named
  match outcome with
  | .error failure => fail (describe (.raised failure))
  | .ok value =>
      match accepts value with
      | .ok true => pass
      | .ok false => fail (describe (.returned returnedLabel value))
      | .error fault => do
          let _ ← pass
          throw fault

def checkValue (expected : Value) (subject : Subject) (arguments : List Value) (named : Named) :
    TallyM String :=
  check "value" "value" expected (fun value => .ok (expected.same value)) subject
    (subject.call arguments named) arguments named

-- The items of the result are compared.
def checkItems (expected : Value) (subject : Subject) (arguments : List Value) (named : Named) :
    TallyM String := do
  let expected := Value.list (← (expected.items : Except Fault _))
  check "sequence" "sequence" expected (fun value => .ok (expected.same value)) subject
    (itemsOf (subject.call arguments named)) arguments named

-- Two named arguments may set the tolerances.
def checkNear (expected : Value) (subject : Subject) (arguments : List Value) (named : Named) :
    TallyM String :=
  let (relative, named) := takeNamed named "rel_tol" (.float 1e-9)
  let (absolute, named) := takeNamed named "abs_tol" (.float 1e-12)
  check "approximate value" "value" expected (areNear relative absolute expected) subject
    (subject.call arguments named) arguments named

def checkRaised (expected : Expected) (subject : Subject) (arguments : List Value)
    (named : Named) : TallyM String :=
  let describe := failureText subject.name "exception" expected.shown arguments named
  match subject.call arguments named with
  | .error failure => if expected.accepts failure then pass else fail (describe (.raised failure))
  | .ok value => fail (describe (.returned "value" value))

-- A call that names an argument twice is not counted.
def run (check : Check) (subject : Subject) (arguments : List Value) (named : Named) :
    TallyM String := do
  let named ← (check.handOn named : Except Fault _)
  match check with
  | .value expected => checkValue expected subject arguments named
  | .near expected => checkNear expected subject arguments named
  | .items expected => checkItems expected subject arguments named
  | .raised expected => checkRaised expected subject arguments named

def compare (expected actual description : Value) : TallyM String :=
  if expected.same actual then pass
  else
    fail (failureText description.shown "value" expected.shown [] [] (.returned "value" actual))

-- The summary, if anything failed.
def report (tally : Tally) : Option String :=
  if tally.failures = 0 then none
  else some ("\nutest ran: " ++ toString tally.tests ++ "; failed: " ++ toString tally.failures
    ++ "\n")

end Tally

end Abacus.Trial
