import Abacus.Function.Closure
import Abacus.Function.Dice

namespace Abacus.Builtin

open Arithmetic

variable {σ : Type}

-- The natural logarithm, or the logarithm of the second argument to the first one as base.
def log : Closure σ
  | [x] => return .float (naturalLog x)
  | [base, x] => return .float (logarithm base x)
  | arguments => Closure.refuse "log" "1 or 2" arguments

-- Rounds to a whole number, or to a number of decimal places.
def round : Closure σ
  | [x] => return .float (roundTo x 1)
  | [x, places] => return .float (roundTo x (Float.pow 10 places))
  | arguments => Closure.refuse "round" "1 or 2" arguments

def min : Closure σ
  | x :: rest => return .float (least x rest)
  | arguments => Closure.refuse "min" "at least 1" arguments

def max : Closure σ
  | x :: rest => return .float (greatest x rest)
  | arguments => Closure.refuse "max" "at least 1" arguments

-- A random number from zero to one, to the argument, or between two arguments. A call that is
-- refused draws none.
def rand (draw : StateM σ Float) : Closure σ
  | [] => return .float (← draw)
  | [x] => return .float ((← draw) * x)
  | [x, y] => return .float (x + (← draw) * (y - x))
  | arguments => Closure.refuse "rand" "0 to 2" arguments

def unaries : List (String × (Float → Float)) := [
  ("sin", within Float.sin), ("cos", within Float.cos), ("tan", within Float.tan),
  ("asin", within Float.asin), ("acos", within Float.acos), ("atan", within Float.atan),
  ("sinh", unbounded Float.sinh), ("cosh", unbounded Float.cosh), ("tanh", within Float.tanh),
  ("exp", unbounded Float.exp), ("log2", within Float.log2), ("log10", within Float.log10)]

def all (draw : StateM σ Float) : List (String × Closure σ) := [
    ("sqrt", Closure.unary "sqrt" Float.sqrt),
    ("abs", Closure.unary "abs" Float.abs),
    ("mod", Closure.binary "mod" remainder),
    ("round", round),
    ("floor", Closure.unary "floor" floor),
    ("ceil", Closure.unary "ceil" ceil)]
  ++ unaries.map (fun (name, f) => (name, Closure.unary name f))
  ++ [
    ("atan2", Closure.binary "atan2" Float.atan2),
    ("hypot", Closure.binary "hypot" hypotenuse),
    ("log", log),
    ("ln", Closure.unary "ln" naturalLog),
    ("min", min),
    ("max", max),
    ("rand", rand draw)]

end Builtin

-- A registry that holds the built-in functions.
def Registry.standard : Registry Dice := ⟨Builtin.all Dice.draw, false⟩

end Abacus
