import Abacus.Decimal.Numeral
import Abacus.Value.Basic

namespace Abacus.Value

open Decimal

def floatOfInt (n : Int) : Except Fault Float :=
  let x := Binary64.ofInt n
  if x.isFinite then .ok x else .error .integerTooLarge

-- Numbers stand for themselves and text for the numeral it holds.
def toFloat : Value → Except Fault Float
  | float x => .ok x
  | int n => floatOfInt n
  | bool b => .ok (if b then 1 else 0)
  | str text =>
      match readFloat? text with
      | some x => .ok x
      | none => .error (.notNumber text)
  | value => .error (.noNumber value.typeName)

-- A double loses its fraction.
def truncate (x : Float) : Except Fault Int :=
  match Binary64.read x with
  | .nan => .error .nanInteger
  | .infinite _ => .error .infiniteInteger
  | .finite negative mantissa exponent =>
      let (num, den) := Binary64.scale mantissa 1 exponent
      .ok (if negative then -((num / den : Nat) : Int) else (num / den : Nat))

def toInt : Value → Except Fault Int
  | int n => .ok n
  | bool b => .ok (if b then 1 else 0)
  | float x => truncate x
  | str text =>
      match readInt? text with
      | some n => .ok n
      | none => .error (.notInteger text)
  | value => .error (.noInteger value.typeName)

-- Whole numbers, of which truth values are two, stay whole under addition.
def addNumbers : Value → Value → Option (Except Fault Value)
  | float a, float b => some (.ok (float (a + b)))
  | float a, int b => some ((floatOfInt b).map fun x => float (a + x))
  | float a, bool b => some (.ok (float (a + if b then 1 else 0)))
  | int a, float b => some ((floatOfInt a).map fun x => float (x + b))
  | bool a, float b => some (.ok (float ((if a then 1 else 0) + b)))
  | int a, int b => some (.ok (int (a + b)))
  | int a, bool b => some (.ok (int (a + if b then 1 else 0)))
  | bool a, int b => some (.ok (int ((if a then 1 else 0) + b)))
  | bool a, bool b => some (.ok (int ((if a then 1 else 0) + if b then 1 else 0)))
  | _, _ => none

-- Texts, lists and tuples are joined with their like, and a pair counts as a tuple.
def add (left right : Value) : Except Fault Value :=
  match left, left.components? with
  | str a, _ =>
      match right with
      | str b => .ok (str (a ++ b))
      | other => .error (.cannotJoin "str" other.typeName)
  | list a, _ =>
      match right with
      | list b => .ok (list (a ++ b))
      | other => .error (.cannotJoin "list" other.typeName)
  | _, some a =>
      match right.components? with
      | some b => .ok (tuple (a ++ b))
      | none => .error (.cannotJoin "tuple" right.typeName)
  | _, none =>
      (addNumbers left right).getD (.error (.cannotAdd left.typeName right.typeName))

def length : Value → Except Fault Nat
  | str text => .ok text.length
  | list items => .ok items.length
  | tuple items => .ok items.length
  | pair .. => .ok 2
  | value => .error (.noLength value.typeName)

-- All but the last item.
def dropLast : Value → Except Fault Value
  | str text => .ok (str (String.ofList text.toList.dropLast))
  | list items => .ok (list items.dropLast)
  | tuple items => .ok (tuple items.dropLast)
  | pair left _ => .ok (tuple [left])
  | value => .error (.noSlice value.typeName)

-- The two sides of a pair or of an operation, the right one first.
def swap : Value → Except Fault Value
  | pair left right => .ok (pair right left)
  | binary _ left right => .ok (pair right left)
  | argument .. => .error (.noComponent "Arg" "l")
  | value => .error (.noComponent value.typeName "r")

-- The items that a walk over the value meets.
def items : Value → Except Fault (List Value)
  | str text => .ok (text.toList.map fun c => str (String.singleton c))
  | list items => .ok items
  | tuple items => .ok items
  | pair left right => .ok [left, right]
  | value => .error (.noItems value.typeName)

-- The first item, of text, a list or a tuple.
def firstItem : Value → Except Fault Value
  | str text =>
      match text.toList with
      | [] => .error .pastEndOfText
      | c :: _ => .ok (str (String.singleton c))
  | list [] => .error .noArgument
  | list (item :: _) => .ok item
  | tuple [] => .error .emptyTuple
  | tuple (item :: _) => .ok item
  | pair left _ => .ok left
  | value => .error (.noSlice value.typeName)

theorem add_str (a b : String) : (str a).add (str b) = .ok (str (a ++ b)) := rfl

end Abacus.Value
