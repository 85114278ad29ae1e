import Abacus.Operator

namespace Abacus

-- What parsers yield and what the calculator evaluates. A node may have any value for a child.
inductive Value
  | absent
  | null
  | bool (b : Bool)
  | int (n : Int)
  | float (x : Float)
  | str (text : String)
  | list (items : List Value)
  | tuple (items : List Value)
  | pair (left right : Value)
  | number (x : Float)
  | binary (operator : Operator) (left right : Value)
  | call (name : String) (arguments : Value)
  | argument (first rest : Value)
  | noArguments
  | root (tree : Value)
deriving Inhabited

namespace Value

def isAbsent : Value → Bool
  | absent => true
  | _ => false

def isArgument : Value → Bool
  | argument .. => true
  | _ => false

-- The name of its type that a message shows.
def typeName : Value → String
  | absent => "_Absent"
  | null => "NoneType"
  | bool _ => "bool"
  | int _ => "int"
  | float _ => "float"
  | str _ => "str"
  | list _ => "list"
  | tuple _ => "tuple"
  | pair .. => "Pair"
  | number _ => "Num"
  | binary .. => "BinOp"
  | call .. => "Func"
  | argument .. => "Arg"
  | noArguments => "ArgEnd"
  | root _ => "Root"

-- The components of a tuple. A pair is a tuple of two.
def components? : Value → Option (List Value)
  | tuple items => some items
  | pair left right => some [left, right]
  | _ => none

theorem isAbsent_iff (value : Value) : value.isAbsent ↔ value = absent := by
  cases value <;> simp [isAbsent]

end Value

end Abacus
