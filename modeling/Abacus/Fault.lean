import Abacus.Text.Quoted

namespace Abacus

-- What can go wrong, by cause.
inductive Fault
  -- A tag that names no operator.
  | unknownOperator (tag : String)
  -- Joining a sequence with something that is no sequence of its kind.
  | cannotJoin (sequence other : String)
  | cannotAdd (left right : String)
  | notInteger (numeral : String)
  | noInteger (typeName : String)
  | infiniteInteger
  | nanInteger
  | notNumber (numeral : String)
  | noNumber (typeName : String)
  | integerTooLarge
  | noLength (typeName : String)
  | noSlice (typeName : String)
  | noComponent (typeName component : String)
  | noItems (typeName : String)
  | noKey (typeName : String)
  -- More arguments than a method takes, which is anything from the least to the most.
  | tooManyArguments (name : String) (least most given : Nat)
  -- An argument that is given both by place and by name.
  | repeatedArgument (name argument : String)
  -- A success without a payload.
  | absentPayload
  -- A success where a failure is required, described where the message shows it.
  | notFailed (description : String)
  -- An offset that the view does not allow.
  | outsideView (offset : Int) (view : String)
  | notOneCharacter (text : String)
  | badRange (first last : Int)
  | noSuchOffset (offset : Int)
  | pastEndOfText
  | emptyTuple
  -- Patterns that name an unknown rule or recurse without consuming.
  | unboundRule (name : String)
  | noProgress
  -- Functions of the calculator.
  | registryFrozen (name : String)
  | invalidName (name : String)
  | unknownFunction (name : String)
  | arity (name expected : String) (received : Nat)
  | noArgument
  | failedParse (reason : String)
  | absentTree
  -- Options of a listing.
  | negativeIndent
  | noWidth
  -- A failure that a registered function raises itself.
  | raised (kind text : String)
deriving DecidableEq, Repr, Inhabited

namespace Fault

def kind : Fault → String
  | unknownOperator _ | notInteger _ | nanInteger | notNumber _ | invalidName _
  | failedParse _ | absentTree | negativeIndent | noWidth => "ValueError"
  | cannotJoin .. | cannotAdd .. | noInteger _ | noNumber _ | noLength _ | noSlice _
  | noItems _ | noKey _ | tooManyArguments .. | repeatedArgument .. => "TypeError"
  | infiniteInteger | integerTooLarge => "OverflowError"
  | noComponent .. => "AttributeError"
  | absentPayload | notFailed _ | outsideView .. | notOneCharacter _ | badRange .. =>
      "AssertionError"
  | noSuchOffset _ | pastEndOfText | emptyTuple | noArgument => "IndexError"
  | unboundRule _ | unknownFunction _ => "KeyError"
  | noProgress => "RecursionError"
  | registryFrozen _ => "RegistryFrozen"
  | arity .. => "ArityError"
  | raised kind _ => kind

def beginning (length : Nat) (text : String) : String := String.ofList (text.toList.take length)

def plural (count : Nat) (word : String) : String :=
  if count = 1 then word else word ++ "s"

-- Only a fixed number of one is singular.
def tooManyText (name : String) (least most given : Nat) : String :=
  let takes :=
    if least = most then toString most ++ " positional " ++ plural most "argument"
    else "from " ++ toString least ++ " to " ++ toString most ++ " positional arguments"
  name ++ "() takes " ++ takes ++ " but " ++ toString given ++ " "
    ++ (if given = 1 then "was" else "were") ++ " given"

-- One argument is singular; every other expectation, "at least 1" included, is plural.
def arityText (name expected : String) (received : Nat) : String :=
  let plural := if expected = "1" then "" else "s"
  name ++ ": expected " ++ expected ++ " argument" ++ plural ++ "; received " ++ toString received

-- The text that the failure carries.
def detail : Fault → String
  | unknownOperator tag => "invalid binary operator tag: " ++ Text.quoted tag
  | cannotJoin sequence other =>
      "can only concatenate " ++ sequence ++ " (not \"" ++ other ++ "\") to " ++ sequence
  | cannotAdd left right =>
      "unsupported operand type(s) for +: " ++ Text.quoted left ++ " and " ++ Text.quoted right
  | notInteger numeral =>
      "invalid literal for int() with base 10: " ++ beginning 200 (Text.quoted numeral)
  | noInteger typeName =>
      "int() argument must be a string, a bytes-like object or a real number, not "
        ++ Text.quoted typeName
  | infiniteInteger => "cannot convert float infinity to integer"
  | nanInteger => "cannot convert float NaN to integer"
  | notNumber numeral => "could not convert string to float: " ++ Text.quoted numeral
  | noNumber typeName =>
      "float() argument must be a string or a real number, not " ++ Text.quoted typeName
  | integerTooLarge => "int too large to convert to float"
  | noLength typeName => "object of type " ++ Text.quoted typeName ++ " has no len()"
  | noSlice typeName => Text.quoted typeName ++ " object is not subscriptable"
  | noComponent typeName component =>
      Text.quoted typeName ++ " object has no attribute " ++ Text.quoted component
  | noItems typeName => Text.quoted typeName ++ " object is not iterable"
  | noKey typeName => "unhashable type: " ++ Text.quoted typeName
  | tooManyArguments name least most given => tooManyText name least most given
  | repeatedArgument name argument =>
      name ++ "() got multiple values for argument " ++ Text.quoted argument
  | absentPayload => ""
  | notFailed description => description
  | outsideView offset view => "(" ++ toString offset ++ ", " ++ view ++ ")"
  | notOneCharacter text => text
  | badRange first last => "(" ++ toString first ++ ", " ++ toString last ++ ")"
  | noSuchOffset offset => toString offset
  | pastEndOfText => "string index out of range"
  | emptyTuple => "tuple index out of range"
  | unboundRule name => name
  | noProgress => "maximum recursion depth exceeded"
  | registryFrozen name => "cannot register " ++ Text.quoted name ++ ": registry is frozen"
  | invalidName name => "invalid function name: " ++ Text.quoted name
  | unknownFunction name => name
  | arity name expected received => arityText name expected received
  | noArgument => "list index out of range"
  | failedParse reason => reason
  | absentTree => "cannot evaluate an absent value"
  | negativeIndent => "indent must be >= 0"
  | noWidth => "width must be != 0"
  | raised _ text => text

-- A missing key is reported in quotes.
def message (fault : Fault) : String :=
  if fault.kind = "KeyError" then Text.quoted fault.detail else fault.detail

-- The kind with the text in parentheses, as a report of a failed call shows it.
def shown (fault : Fault) : String := fault.kind ++ "(" ++ Text.quoted fault.detail ++ ")"

end Fault

end Abacus
