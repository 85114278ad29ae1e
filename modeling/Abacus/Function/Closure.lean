import Abacus.Arithmetic.Total
import Abacus.Function.Registry

namespace Abacus.Closure

variable {σ : Type}

def refuse (name expected : String) (arguments : List Float) :
    ExceptT Fault (StateM σ) Value :=
  throw (.arity name expected arguments.length)

-- A function of one number.
def unary (name : String) (f : Float → Float) : Closure σ
  | [x] => return .float (f x)
  | arguments => refuse name "1" arguments

-- A function of two numbers.
def binary (name : String) (f : Float → Float → Float) : Closure σ
  | [x, y] => return .float (f x y)
  | arguments => refuse name "2" arguments

-- The sum, added from the left.
def sum : Closure σ := fun arguments => return .float (arguments.foldl (· + ·) 0)

def count : Closure σ := fun arguments => return .int arguments.length

def first : Closure σ
  | [] => throw .noArgument
  | x :: _ => return .float x

def last : Closure σ
  | [] => throw .noArgument
  | x :: rest => return .float (rest.getLastD x)

def scale (factor : Float) : Closure σ
  | [] => throw .noArgument
  | x :: _ => return .float (factor * x)

def constant (value : Value) : Closure σ := fun _ => return value

-- Refuses whatever it is given.
def arity (name expected : String) : Closure σ := refuse name expected

def failing (fault : Fault) : Closure σ := fun _ => throw fault

end Abacus.Closure
