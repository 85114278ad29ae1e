import Abacus.Decimal.Shortest

namespace Abacus.Decimal

open Binary64

-- The choices that a number format leaves open.
structure Style where
  -- Decimal exponents in this range are written positionally.
  positionalFrom : Int
  positionalBelow : Int
  -- What follows a whole number.
  wholeSuffix : String
  exponentMark : String
  exponentPlus : String
  exponentWidth : Nat
  nan : String
  infinity : String

def padLeft (width : Nat) (digits : List Char) : List Char :=
  List.replicate (width - digits.length) '0' ++ digits

-- The digits without the zeros at the end, and the decimal exponent of the first digit.
def significant (decimal : Scaled) : List Char × Int :=
  let digits := (Nat.toDigits 10 decimal.digits)
  let kept := (digits.reverse.dropWhile (· = '0')).reverse
  (kept, decimal.exponent + digits.length - 1)

def Style.positional (style : Style) (digits : List Char) (leading : Int) : List Char :=
  if leading < 0 then
    '0' :: '.' :: List.replicate (-leading - 1).toNat '0' ++ digits
  else
    let whole := leading.toNat + 1
    if digits.length ≤ whole then
      digits ++ List.replicate (whole - digits.length) '0' ++ style.wholeSuffix.toList
    else digits.take whole ++ '.' :: digits.drop whole

def Style.scientific (style : Style) (digits : List Char) (leading : Int) : List Char :=
  let sign := if leading < 0 then ['-'] else style.exponentPlus.toList
  let exponent := padLeft style.exponentWidth (Nat.toDigits 10 leading.natAbs)
  let fraction := if digits.length ≤ 1 then [] else '.' :: digits.drop 1
  digits.take 1 ++ fraction ++ style.exponentMark.toList ++ sign ++ exponent

def Style.magnitude (style : Style) (mantissa : Nat) (exponent : Int) : List Char :=
  if mantissa = 0 then '0' :: style.wholeSuffix.toList else
    let (digits, leading) := significant (shortest mantissa exponent)
    if style.positionalFrom ≤ leading ∧ leading < style.positionalBelow then
      style.positional digits leading
    else style.scientific digits leading

def Style.write (style : Style) (x : Float) : String :=
  match read x with
  | .nan => style.nan
  | .infinite negative => (if negative then "-" else "") ++ style.infinity
  | .finite negative mantissa exponent =>
      (if negative then "-" else "") ++ String.ofList (style.magnitude mantissa exponent)

end Abacus.Decimal
