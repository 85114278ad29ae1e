import Abacus.Text.Alphanumeric
import Abacus.Value.Conversion
import Abacus.Value.Shown

namespace Abacus

-- A function of its arguments, which may use the state of the calculator and may fail.
abbrev Closure (σ : Type) := List Float → ExceptT Fault (StateM σ) Value

-- Names keep the order in which they were first registered, and a frozen registry never changes.
structure Registry (σ : Type) where
  entries : List (String × Closure σ) := []
  isFrozen : Bool := false

namespace Registry

variable {σ : Type}

def names (registry : Registry σ) : List String := registry.entries.map Prod.fst

def get? (registry : Registry σ) (name : String) : Option (Closure σ) :=
  (registry.entries.find? (·.1 == name)).map Prod.snd

def contains (registry : Registry σ) (name : String) : Bool := registry.names.contains name

def size (registry : Registry σ) : Nat := registry.entries.length

def isNameChar (c : Char) : Bool := c = '_' || Text.isAlphanumeric c

def isValidName (name : String) : Bool := name ≠ "" && name.toList.all isNameChar

-- A name that is there already keeps its place.
def put (name : String) (closure : Closure σ) :
    List (String × Closure σ) → List (String × Closure σ)
  | [] => [(name, closure)]
  | entry :: rest =>
      if entry.1 = name then (name, closure) :: rest else entry :: put name closure rest

def register (registry : Registry σ) (name : String) (closure : Closure σ) :
    Except Fault (Registry σ) :=
  if registry.isFrozen then .error (.registryFrozen name)
  else if !isValidName name then .error (.invalidName name)
  else .ok { registry with entries := put name closure registry.entries }

def freeze (registry : Registry σ) : Registry σ := { registry with isFrozen := true }

def shown (registry : Registry σ) : String :=
  "FunctionRegistry([" ++ Value.commaSeparated (registry.names.map Text.quoted) ++ "]"
    ++ (if registry.isFrozen then ", frozen" else "") ++ ")"

end Registry

end Abacus
