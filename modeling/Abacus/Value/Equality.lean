import Abacus.Binary64
import Abacus.Value.Basic

namespace Abacus.Value

-- Numbers are compared by what they stand for, whatever their type; a pair equals a tuple with its
-- two components; a NaN equals nothing.
mutual

def same : Value → Value → Bool
  | absent, absent => true
  | null, null => true
  | bool a, right => right.sameInt (if a then 1 else 0)
  | int a, right => right.sameInt a
  | float a, right =>
      match right with
      | float b => a == b
      | int b => Binary64.equalsInt a b
      | bool b => Binary64.equalsInt a (if b then 1 else 0)
      | _ => false
  | str a, str b => a == b
  | list as, list bs => sameAll as bs
  | tuple as, right =>
      match right with
      | tuple bs => sameAll as bs
      | pair left right => sameAll as [left, right]
      | _ => false
  | pair first second, right =>
      match right with
      | tuple [a, b] => first.same a && second.same b
      | pair a b => first.same a && second.same b
      | _ => false
  | number a, number b => a == b
  | binary f a b, binary g c d => f = g && a.same c && b.same d
  | call f a, call g b => f == g && a.same b
  | argument a b, argument c d => a.same c && b.same d
  | noArguments, noArguments => true
  | root a, root b => a.same b
  | _, _ => false

def sameInt : Value → Int → Bool
  | float b, a => Binary64.equalsInt b a
  | int b, a => a = b
  | bool b, a => a = (if b then 1 else 0)
  | _, _ => false

def sameAll : List Value → List Value → Bool
  | [], [] => true
  | a :: as, b :: bs => a.same b && sameAll as bs
  | _, _ => false

end

mutual

def holdsList : Value → Bool
  | list _ => true
  | tuple items => anyHoldsList items
  | pair left right => left.holdsList || right.holdsList
  | binary _ left right => left.holdsList || right.holdsList
  | call _ arguments => arguments.holdsList
  | argument first rest => first.holdsList || rest.holdsList
  | root tree => tree.holdsList
  | _ => false

def anyHoldsList : List Value → Bool
  | [] => false
  | item :: items => item.holdsList || anyHoldsList items

end

-- The value as a key. What holds a list is none either.
def asKey (value : Value) : Except Fault Value :=
  if value.holdsList then .error (.noKey "list") else .ok value

end Abacus.Value
