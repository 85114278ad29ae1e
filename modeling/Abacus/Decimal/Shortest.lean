import Abacus.Binary64

namespace Abacus.Decimal

open Binary64

-- The number `digits * 10 ^ exponent`.
structure Scaled where
  digits : Nat
  exponent : Int
deriving DecidableEq, Repr

-- The reals between two decimal places, in a common unit.
structure Interval where
  low : Nat
  high : Nat
  closed : Bool

def Interval.contains (interval : Interval) (n : Nat) : Bool :=
  if interval.closed then interval.low ≤ n && n ≤ interval.high
  else interval.low < n && n < interval.high

def powerOfTen (num den : Nat) (place : Int) : Nat × Nat :=
  if place < 0 then (num * Nat.pow 10 (-place).toNat, den)
  else (num, den * Nat.pow 10 place.toNat)

-- The least `place` with `num / den < 10 ^ place`. The logarithms to base two leave four choices.
def decade (num den : Nat) : Int :=
  let least : Int := ((num.log2 : Int) - den.log2 - 1) * 1233 / 4096
  let below (place : Int) : Bool :=
    let (top, bottom) := powerOfTen num den place
    top < bottom
  let choices := (List.range 5).map fun (step : Nat) => least - 1 + (step : Int)
  (choices.find? below).getD (least + 4)

-- A quarter of the last binary digit is the unit, so that the value and both ends of the reals
-- that round to it are whole. Below a power of two the doubles lie half as far apart.
def rounding (mantissa : Nat) (exponent : Int) : Interval :=
  let below := if mantissa = Nat.pow 2 52 ∧ leastExponent < exponent then 1 else 2
  ⟨4 * mantissa - below, 4 * mantissa + 2, mantissa % 2 = 0⟩

-- The neighbours of the value among the multiples of `10 ^ place`, the nearer one first.
def neighbours (num den : Nat) (place : Int) : List Nat :=
  let (top, bottom) := powerOfTen num den place
  let low := top / bottom
  if low = roundDiv top bottom then [low, low + 1] else [low + 1, low]

def readsBack (interval : Interval) (num den : Nat) (place : Int) (digits : Nat) : Bool :=
  let (scaleDigits, scaleEnds) :=
    if place < 0 then (1, Nat.pow 10 (-place).toNat) else (Nat.pow 10 place.toNat, 1)
  let candidate := digits * scaleDigits * den
  Interval.contains ⟨interval.low * num * scaleEnds, interval.high * num * scaleEnds,
    interval.closed⟩ candidate

-- The first grid with a neighbour that reads back, from one digit to seventeen.
def shortestOnGrids (interval : Interval) (num den : Nat) (value : Nat × Nat) (place : Int) :
    Nat → Scaled
  | 0 => ⟨0, 0⟩
  | more + 1 =>
      match (neighbours value.1 value.2 place).find? (readsBack interval num den place) with
      | some digits => ⟨digits, place⟩
      | none => shortestOnGrids interval num den value (place - 1) more

-- The shortest decimal of the positive double `mantissa * 2 ^ exponent`. Of those that read back
-- the nearest one is taken, and of two equally near ones the one with the even digit.
def shortest (mantissa : Nat) (exponent : Int) : Scaled :=
  let (num, den) := scale 1 1 (exponent - 2)
  let value := (4 * mantissa * num, den)
  shortestOnGrids (rounding mantissa exponent) num den value (decade value.1 value.2 - 1) 17

end Abacus.Decimal
