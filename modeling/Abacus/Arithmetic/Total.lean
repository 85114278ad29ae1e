import Abacus.Arithmetic.Rounding
import Abacus.Operator

namespace Abacus.Arithmetic

open Binary64

-- An infinite result of a finite argument lies outside the domain.
def within (f : Float → Float) (x : Float) : Float :=
  let y := f x
  if y.isInf && x.isFinite then nan else y

-- An infinite result of a finite argument is too large, whatever its sign.
def unbounded (f : Float → Float) (x : Float) : Float :=
  let y := f x
  if y.isInf && x.isFinite then infinity else y

def naturalLog : Float → Float := within Float.log

-- The remainder that has the sign of the divisor.
def modulo (x y : Float) : Float :=
  let rest := remainder x y
  if y == 0 then nan
  else if rest == 0 then withSignOf 0 y
  else if (y < 0) != (rest < 0) then rest + y
  else rest

-- Zero to a negative power is infinity, whatever the sign of the zero.
def power (x y : Float) : Float := if x == 0 && y < 0 then infinity else Float.pow x y

-- Dividing by zero, which leaves no number.
def strictDivide (x y : Float) : Float := if y == 0 then nan else x / y

-- The quotient of the logarithms, except for the bases that have a logarithm of their own.
def logarithm (base x : Float) : Float :=
  if base == 2 then within Float.log2 x
  else if base == 10 then within Float.log10 x
  else strictDivide (naturalLog x) (naturalLog base)

-- The nearest multiple of a power of ten, with halves away from zero. What cannot be scaled stays.
def roundTo (x scale : Float) : Float :=
  if x.isFinite && scale.isFinite && 0 < scale then
    withSignOf (floor (x.abs * scale + 0.5)) x / scale
  else x

-- The first of the least values.
def least (first : Float) (rest : List Float) : Float :=
  rest.foldl (fun best x => if x < best then x else best) first

-- The first of the greatest values.
def greatest (first : Float) (rest : List Float) : Float :=
  rest.foldl (fun best x => if best < x then x else best) first

end Arithmetic

-- What an operator computes. Division by zero follows the signs of its operands.
def Operator.apply : Operator → Float → Float → Float
  | add => (· + ·)
  | subtract => (· - ·)
  | multiply => (· * ·)
  | divide => (· / ·)
  | modulo => Arithmetic.modulo
  | power => Arithmetic.power

end Abacus
