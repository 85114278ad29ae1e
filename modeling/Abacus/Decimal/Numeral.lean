import Abacus.Binary64
import Abacus.Text.Blank
import Abacus.Text.DecimalDigit

namespace Abacus.Decimal

open Binary64 Text

-- What a numeral stands for: a finite one is `coefficient * 10 ^ exponent`.
inductive Numeral
  | nan
  | infinite (negative : Bool)
  | finite (negative : Bool) (coefficient : Nat) (exponent : Int)
deriving DecidableEq, Repr

def latinDigit (c : Char) : Char :=
  match digitValue? c with
  | some digit => Nat.digitChar digit
  | none => c

-- Drops the underscores between digits and refuses every other one.
def joinDigits (afterDigit : Bool) : List Char → Option (List Char)
  | [] => some []
  | c :: rest =>
      if c = '_' then
        if afterDigit && rest.head?.any Char.isDigit then joinDigits false rest else none
      else (joinDigits c.isDigit rest).map (c :: ·)

def numeralChars (text : String) : Option (List Char) :=
  joinDigits false ((trim text.toList).map latinDigit)

def splitSign : List Char → Bool × List Char
  | '-' :: rest => (true, rest)
  | '+' :: rest => (false, rest)
  | rest => (false, rest)

def digitsValue (digits : List Char) : Nat :=
  digits.foldl (fun value digit => 10 * value + (digit.toNat - '0'.toNat)) 0

def readNat? (digits : List Char) : Option Nat :=
  if digits.isEmpty || !digits.all Char.isDigit then none else some (digitsValue digits)

def readSigned? (text : List Char) : Option Int :=
  let (negative, digits) := splitSign text
  (readNat? digits).map fun (n : Nat) => if negative then -(n : Int) else n

-- A whole number: a sign and digits.
def readInt? (text : String) : Option Int := (numeralChars text).bind readSigned?

def readExponent? : List Char → Option Int
  | [] => some 0
  | c :: rest => if c = 'e' || c = 'E' then readSigned? rest else none

-- Digits with an optional point among, before or after them, and an optional exponent.
def readFinite? (negative : Bool) (text : List Char) : Option Numeral :=
  let whole := text.takeWhile Char.isDigit
  let (fraction, rest) :=
    match text.dropWhile Char.isDigit with
    | '.' :: rest => (rest.takeWhile Char.isDigit, rest.dropWhile Char.isDigit)
    | rest => ([], rest)
  match readNat? (whole ++ fraction), readExponent? rest with
  | some coefficient, some exponent =>
      some (.finite negative coefficient (exponent - fraction.length))
  | _, _ => none

-- Blanks may surround a numeral, its digits may be those of any script, and a single underscore
-- may stand between two digits.
def readNumeral? (text : String) : Option Numeral :=
  (numeralChars text).bind fun chars =>
    let (negative, body) := splitSign chars
    match String.ofList (body.map Char.toLower) with
    | "nan" => some .nan
    | "inf" => some (.infinite negative)
    | "infinity" => some (.infinite negative)
    | _ => readFinite? negative body

-- The double nearest to a numeral. Past 310 places before the point every double is exceeded,
-- and past 330 zeros behind it none is reached, so no larger power of ten is formed.
def Numeral.toFloat : Numeral → Float
  | .nan => Binary64.nan
  | .infinite negative => if negative then -infinity else infinity
  | .finite negative coefficient exponent =>
      let places := exponent + (Nat.toDigits 10 coefficient).length
      let magnitude :=
        if coefficient = 0 ∨ places < -330 then 0
        else if 310 < places then infinity
        else if exponent < 0 then nearest coefficient (Nat.pow 10 (-exponent).toNat)
        else nearest (coefficient * Nat.pow 10 exponent.toNat) 1
      if negative then -magnitude else magnitude

def readFloat? (text : String) : Option Float := (readNumeral? text).map Numeral.toFloat

end Abacus.Decimal
