import Abacus.Decimal.Numeral
import Abacus.Text.Quoted

namespace Abacus.Command

inductive Switch
  | help
  | tree
  | name
  | seed
deriving DecidableEq, Repr

namespace Switch

-- What is written for a switch.
def spellings : List (String × Switch) :=
  [("-h", help), ("--help", help), ("-tree", tree), ("-name", name), ("-seed", seed)]

def label : Switch → String
  | help => "-h/--help"
  | tree => "-tree"
  | name => "-name"
  | seed => "-seed"

def ofSpelling? (text : List Char) : Option Switch :=
  (spellings.find? fun spelling => spelling.1.toList = text).map Prod.snd

-- The switches whose spelling begins like this.
def ofBeginning (text : List Char) : List Switch :=
  (spellings.filter fun spelling => text.isPrefixOf spelling.1.toList).map Prod.snd

end Switch

inductive UsageError
  | missingExpression
  | unrecognized (arguments : List String)
  | valueMissing (switch : Switch)
  | valueIgnored (switch : Switch) (value : String)
  | notInteger (switch : Switch) (value : String)
deriving DecidableEq, Repr

def UsageError.message : UsageError → String
  | missingExpression => "the following arguments are required: expr"
  | unrecognized arguments => "unrecognized arguments: " ++ " ".intercalate arguments
  | valueMissing switch => "argument " ++ switch.label ++ ": expected one argument"
  | valueIgnored switch value =>
      "argument " ++ switch.label ++ ": ignored explicit argument " ++ Text.quoted value
  | notInteger switch value =>
      "argument " ++ switch.label ++ ": invalid int value: " ++ Text.quoted value

structure Options where
  words : List String
  showsTree : Bool := false
  name : String := "<args>"
  seed : Option Int := none
deriving DecidableEq, Repr

inductive Request
  | help
  | calculate (options : Options)
deriving DecidableEq, Repr

-- What one argument is by its form.
inductive Token
  | word (text : String)
  -- Two dashes.
  | separator
  | switch (switch : Switch)
  -- A switch with text behind an equals sign, or the short form of help with text right behind it.
  | attached (switch : Switch) (text : String)
  -- The same with a long switch.
  | longAttached (switch : Switch) (text : String)
  | unknown (text : String)
deriving DecidableEq, Repr

def isDigit (c : Char) : Bool := (Text.digitValue? c).isSome

-- A minus sign and a number, which is no switch. One newline may follow.
def isNegativeNumber : List Char → Bool
  | '-' :: rest =>
      let number := if rest.getLast? = some '\n' then rest.dropLast else rest
      match number.dropWhile isDigit with
      | [] => !number.isEmpty
      | '.' :: fraction => !fraction.isEmpty && fraction.all isDigit
      | _ => false
  | _ => false

-- The parts before and behind the first equals sign.
def splitAssignment (text : List Char) : Option (List Char × List Char) :=
  match text.dropWhile (· ≠ '=') with
  | [] => none
  | _ :: value => some (text.takeWhile (· ≠ '='), value)

-- A switch may be cut short, and the short form of help may run into what follows. Only a long
-- switch may be both cut short and followed by an equals sign.
def abbreviated (text : List Char) : Option Token :=
  match text with
  | '-' :: '-' :: _ =>
      let (spelling, value) :=
        match splitAssignment text with
        | some (spelling, value) => (spelling, some value)
        | none => (text, none)
      match Switch.ofBeginning spelling, value with
      | [switch], some value => some (.longAttached switch (String.ofList value))
      | [switch], none => some (.switch switch)
      | _, _ => none
  | '-' :: 'h' :: tail => some (.attached .help (String.ofList tail))
  | _ =>
      match Switch.ofBeginning text with
      | [switch] => some (.switch switch)
      | _ => none

-- A switch in full, an equals sign and text.
def assigned (text : List Char) : Option Token := do
  let (spelling, value) ← splitAssignment text
  let switch ← Switch.ofSpelling? spelling
  match spelling with
  | '-' :: '-' :: _ => return .longAttached switch (String.ofList value)
  | _ => return .attached switch (String.ofList value)

def Token.classify (argument : String) : Token :=
  match argument.toList with
  | '-' :: c :: rest =>
      let text := '-' :: c :: rest
      let exactly := (Switch.ofSpelling? text).map Token.switch
      match exactly.or ((assigned text).or (abbreviated text)) with
      | some token => token
      | none =>
          if isNegativeNumber text || text.contains ' ' then .word argument else .unknown argument
  | _ => .word argument

def Token.text : Token → String
  | word text => text
  | _ => "--"

def Token.isWord : Token → Bool
  | word _ => true
  | _ => false

-- Whether a token takes part in a run of words.
def Token.isPositional : Token → Bool
  | word _ | separator => true
  | _ => false

def tokens : List String → List Token
  | [] => []
  | argument :: rest =>
      if argument = "--" then .separator :: rest.map .word
      else .classify argument :: tokens rest

-- Text behind a switch that takes no value has to be more switches of one letter. Help is the only
-- one of these, so the text is made of it and asks for help, or is refused from the first other
-- character on.
def Request.ofAttached (switch : Switch) : List Char → Except UsageError Request
  | ['h'] => .ok .help
  | 'h' :: c :: rest => ofAttached .help (c :: rest)
  | text => .error (.valueIgnored switch (String.ofList text))

-- The options so far, whether the words are complete, and what has no place.
structure Progress where
  options : Options := { words := [] }
  hasWords : Bool := false
  extras : List String := []

-- The first run that holds a word is the expression.
def Progress.positionals (progress : Progress) (run : List Token) : Progress :=
  if progress.hasWords || !run.any Token.isWord then
    { progress with extras := progress.extras ++ run.map Token.text }
  else
    { progress with
      options := { progress.options with words := (run.erase .separator).map Token.text }
      hasWords := true }

def Progress.showTree (progress : Progress) : Progress :=
  { progress with options := { progress.options with showsTree := true } }

def Progress.setName (progress : Progress) (name : String) : Progress :=
  { progress with options := { progress.options with name := name } }

-- Two dashes behind an equals sign stand for no name.
def attachedName (text : String) : String := if text = "--" then "" else text

def Progress.setSeed (progress : Progress) (value : String) : Except UsageError Progress :=
  match Decimal.readInt? value with
  | some n => .ok { progress with options := { progress.options with seed := some n } }
  | none => .error (.notInteger .seed value)

def Progress.finish (progress : Progress) : Except UsageError Request :=
  if !progress.hasWords then .error .missingExpression
  else if !progress.extras.isEmpty then .error (.unrecognized progress.extras)
  else .ok (.calculate progress.options)

-- `run` holds the positional tokens since the last switch. Help ends the reading at once.
def read (progress : Progress) (run : List Token) : List Token → Except UsageError Request
  | [] => (if run.isEmpty then progress else progress.positionals run).finish
  | token :: rest => do
      if token.isPositional then read progress (run ++ [token]) rest
      else
        let progress := if run.isEmpty then progress else progress.positionals run
        match token, rest with
        | .switch .help, _ => return .help
        | .switch .tree, rest => read progress.showTree [] rest
        | .switch .name, .word value :: rest => read (progress.setName value) [] rest
        | .switch .seed, .word value :: rest => read (← progress.setSeed value) [] rest
        | .switch switch, _ => throw (.valueMissing switch)
        | .attached .name value, rest => read (progress.setName (attachedName value)) [] rest
        | .attached .seed value, rest => read (← progress.setSeed value) [] rest
        | .attached switch text, _ => Request.ofAttached switch text.toList
        | .longAttached switch text, _ => throw (.valueIgnored switch text)
        | .unknown text, rest => read { progress with extras := progress.extras ++ [text] } [] rest
        | _, rest => read progress [] rest

def Request.ofArguments (arguments : List String) : Except UsageError Request :=
  read {} [] (tokens arguments)

end Abacus.Command
