import Abacus.Value.Conversion
import Abacus.Value.Equality
import Abacus.Value.Shown

namespace Abacus.Trial

-- A failure with its payload.
structure Raised where
  kind : String
  payload : Value

namespace Raised

def ofFault (fault : Fault) : Raised := ⟨fault.kind, .str fault.detail⟩

def typeError (words : String) : Raised := ⟨"TypeError", .str words⟩

def shown (raised : Raised) : String := raised.kind ++ "(" ++ raised.payload.shown ++ ")"

end Raised

abbrev Named := List (String × Value)

-- The names of named arguments, by code point.
def sortedNames (named : Named) : List String := (named.map Prod.fst).mergeSort (· ≤ ·)

-- A function by its parameters. Further arguments are refused unless it takes any number of them,
-- and so are further named ones.
structure Subject where
  name : String
  parameters : List String := []
  takesMore : Bool := false
  takesNamed : Bool := false
  run : List Value → Named → Except Raised Value

-- Names in quotes, as a sentence lists them.
def sentenceList (names : List String) : String :=
  let quoted := names.map Text.quoted
  match quoted with
  | [] => ""
  | [name] => name
  | [first, second] => first ++ " and " ++ second
  | _ => Value.commaSeparated quoted.dropLast ++ ", and " ++ quoted.getLastD ""

namespace Subject

def tooMany (subject : Subject) (given : Nat) : Raised :=
  let most := subject.parameters.length
  .ofFault (.tooManyArguments subject.name most most given)

def missing (subject : Subject) (names : List String) : Raised :=
  .typeError (subject.name ++ "() missing " ++ toString names.length ++ " required positional "
    ++ Fault.plural names.length "argument" ++ ": " ++ sentenceList names)

def unexpected (subject : Subject) (name : String) : Raised :=
  .typeError (subject.name ++ "() got an unexpected keyword argument " ++ Text.quoted name)

def repeated (subject : Subject) (name : String) : Raised :=
  .ofFault (.repeatedArgument subject.name name)

-- Gives named arguments to the parameters that they name, and keeps the others.
def assign (subject : Subject) (bound : Named) : Named → Except Raised (Named × Named)
  | [] => .ok (bound, [])
  | (name, value) :: rest =>
      if subject.parameters.contains name then
        if bound.any (·.1 = name) then .error (subject.repeated name)
        else assign subject (bound ++ [(name, value)]) rest
      else if subject.takesNamed then
        (assign subject bound rest).map fun (bound, others) => (bound, (name, value) :: others)
      else .error (subject.unexpected name)

def call (subject : Subject) (arguments : List Value) (named : Named) : Except Raised Value := do
  let (bound, others) ← subject.assign (subject.parameters.zip arguments) named
  let more := arguments.drop subject.parameters.length
  if !more.isEmpty && !subject.takesMore then throw (subject.tooMany arguments.length)
  match subject.parameters.filter fun name => !bound.any (·.1 = name) with
  | [] =>
      let values := subject.parameters.filterMap fun name =>
        (bound.find? (·.1 = name)).map Prod.snd
      subject.run (values ++ more) others
  | names => throw (subject.missing names)

end Subject

-- The kind of failure that each kind is a special case of.
def parentKinds : List (String × String) := [
  ("Exception", "BaseException"), ("KeyboardInterrupt", "BaseException"),
  ("SystemExit", "BaseException"), ("GeneratorExit", "BaseException"),
  ("ArithmeticError", "Exception"), ("FloatingPointError", "ArithmeticError"),
  ("OverflowError", "ArithmeticError"), ("ZeroDivisionError", "ArithmeticError"),
  ("AssertionError", "Exception"), ("AttributeError", "Exception"), ("BufferError", "Exception"),
  ("EOFError", "Exception"), ("ImportError", "Exception"), ("ModuleNotFoundError", "ImportError"),
  ("LookupError", "Exception"), ("IndexError", "LookupError"), ("KeyError", "LookupError"),
  ("MemoryError", "Exception"), ("NameError", "Exception"), ("UnboundLocalError", "NameError"),
  ("OSError", "Exception"), ("FileExistsError", "OSError"), ("FileNotFoundError", "OSError"),
  ("PermissionError", "OSError"), ("TimeoutError", "OSError"), ("ReferenceError", "Exception"),
  ("RuntimeError", "Exception"), ("NotImplementedError", "RuntimeError"),
  ("RecursionError", "RuntimeError"), ("StopIteration", "Exception"),
  ("StopAsyncIteration", "Exception"), ("SyntaxError", "Exception"), ("SystemError", "Exception"),
  ("TypeError", "Exception"), ("ValueError", "Exception"), ("UnicodeError", "ValueError"),
  ("Warning", "Exception"), ("UserWarning", "Warning"), ("RegistryFrozen", "Exception"),
  ("ArityError", "ValueError"), ("DispatchKeyError", "KeyError")]

def parentKind? (kind : String) : Option String :=
  (parentKinds.find? (·.1 = kind)).map Prod.snd

-- Whether a kind is another one or a special case of it, within so many steps.
def isKindWithin : Nat → String → String → Bool
  | 0, kind, general => kind = general
  | steps + 1, kind, general =>
      kind = general || (parentKind? kind).any fun parent => isKindWithin steps parent general

def isKind (kind general : String) : Bool := isKindWithin parentKinds.length kind general

end Abacus.Trial
