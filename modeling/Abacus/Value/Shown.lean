import Abacus.Decimal.Style
import Abacus.Value.Basic

namespace Abacus

-- Doubles are positional from 1e-4 up to 1e16, whole numbers keep a zero behind the point, and an
-- exponent has a sign and at least two digits.
def numberStyle : Decimal.Style where
  positionalFrom := -4
  positionalBelow := 16
  wholeSuffix := ".0"
  exponentMark := "e"
  exponentPlus := "+"
  exponentWidth := 2
  nan := "nan"
  infinity := "inf"

def showFloat (x : Float) : String := numberStyle.write x

namespace Value

def commaSeparated (items : List String) : String := ", ".intercalate items

-- A tuple of one item keeps its comma.
def tupleText : List String → String
  | [item] => "(" ++ item ++ ",)"
  | items => "(" ++ commaSeparated items ++ ")"

mutual

def shown : Value → String
  | absent => "absent"
  | null => "None"
  | bool b => if b then "True" else "False"
  | int n => toString n
  | float x => showFloat x
  | str text => Text.quoted text
  | list items => "[" ++ commaSeparated (shownAll items) ++ "]"
  | tuple items => tupleText (shownAll items)
  | pair left right => "Pair(l=" ++ left.shown ++ ", r=" ++ right.shown ++ ")"
  | number x => "Num(c=" ++ showFloat x ++ ")"
  | binary operator left right =>
      "BinOp(t=" ++ Text.quoted operator.symbol ++ ", l=" ++ left.shown ++ ", r="
        ++ right.shown ++ ")"
  | call name arguments =>
      "Func(func=" ++ Text.quoted name ++ ", c=" ++ arguments.shown ++ ")"
  | argument first rest => "Arg(c=" ++ first.shown ++ ", r=" ++ rest.shown ++ ")"
  | noArguments => "ArgEnd()"
  | root tree => "Root(c=" ++ tree.shown ++ ")"

def shownAll : List Value → List String
  | [] => []
  | item :: items => item.shown :: shownAll items

end

-- As a label: text stands for itself.
def plain : Value → String
  | str text => text
  | value => value.shown

end Value

end Abacus
