namespace Abacus.Binary64

-- A finite double is `mantissa * 2 ^ exponent`, negated if `negative`.
inductive Reading
  | nan
  | infinite (negative : Bool)
  | finite (negative : Bool) (mantissa : Nat) (exponent : Int)
deriving DecidableEq, Repr

-- The exponent of the smallest positive double.
def leastExponent : Int := -1074

def readBits (bits : Nat) : Reading :=
  let negative := bits / Nat.pow 2 63 = 1
  let biased : Nat := bits / Nat.pow 2 52 % Nat.pow 2 11
  let fraction := bits % Nat.pow 2 52
  if biased = 2047 then
    if fraction = 0 then .infinite negative else .nan
  else if biased = 0 then .finite negative fraction leastExponent
  else .finite negative (Nat.pow 2 52 + fraction) ((biased : Int) + (leastExponent - 1))

def read (x : Float) : Reading := readBits x.toBits.toNat

def isNegative (x : Float) : Bool := x.toBits.toNat / Nat.pow 2 63 = 1

-- A fraction times a power of two, as a fraction.
def scale (num den : Nat) (exponent : Int) : Nat × Nat :=
  if exponent < 0 then (num, den <<< (-exponent).toNat) else (num <<< exponent.toNat, den)

-- The nearest whole number to a fraction; halfway goes to the even neighbour.
def roundDiv (num den : Nat) : Nat :=
  let low := num / den
  let twice := 2 * (num % den)
  if twice < den ∨ (twice = den ∧ low % 2 = 0) then low else low + 1

-- A fraction needs an exponent that leaves it at most 53 digits before the binary point.
def exponentFor (num den : Nat) : Int :=
  let guess : Int := (num.log2 : Int) - den.log2 - 53
  let (top, bottom) := scale num den (-guess)
  max leastExponent (if top < bottom <<< 53 then guess else guess + 1)

def infinityBits : Nat := 2047 * Nat.pow 2 52

-- One past the largest mantissa carries into the exponent, and past the largest double the
-- bits are those of infinity.
def nearestBits (num den : Nat) : Nat :=
  if num = 0 then 0 else
    let exponent := exponentFor num den
    let (top, bottom) := scale num den (-exponent)
    min infinityBits ((exponent - leastExponent).toNat * Nat.pow 2 52 + roundDiv top bottom)

def nearest (num den : Nat) : Float := Float.ofBits (UInt64.ofNat (nearestBits num den))

-- The double `mantissa * 2 ^ exponent`, rounded where it has to be.
def ofDyadic (negative : Bool) (mantissa : Nat) (exponent : Int) : Float :=
  let (num, den) := scale mantissa 1 exponent
  let magnitude := nearest num den
  if negative then -magnitude else magnitude

def ofInt (n : Int) : Float :=
  if n < 0 then -(nearest n.natAbs 1) else nearest n.natAbs 1

def infinity : Float := Float.ofBits 0x7ff0000000000000

def nan : Float := Float.ofBits 0x7ff8000000000000

-- Whether a double is exactly a whole number.
def equalsInt (x : Float) (n : Int) : Bool :=
  match read x with
  | .finite negative mantissa exponent =>
      let (num, den) := scale mantissa 1 exponent
      (if negative then -(num : Int) else num) = n * den
  | _ => false

end Abacus.Binary64
