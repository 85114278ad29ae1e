import Abacus.Pattern.Basic

namespace Abacus.Pattern

-- Each character once, by code point.
def sortedChars (chars : List Char) : List Char :=
  chars.eraseDups.mergeSort fun a b => a.toNat ≤ b.toNat

def oneOf (chars : List Char) : Pattern :=
  satisfy (fun c => chars.contains c)
    ("one of " ++ Text.quoted (String.ofList (sortedChars chars)))

def character (char : Char) : Pattern :=
  satisfy (fun c => c = char) ("character " ++ Text.quoted (String.singleton char))

-- A text stands for the one character it holds.
def characterOf (text : String) : Except Fault Pattern :=
  match text.toList with
  | [char] => .ok (character char)
  | _ => .error (.notOneCharacter text)

def anyCharacter : Pattern := satisfy (fun _ => true) "any character"

def wordChars : List Char → Pattern
  | [] => always (.str "")
  | char :: rest => seq (character char) (wordChars rest) .joining

-- A failure names the first character that differs and the whole word.
def word (text : String) : Pattern :=
  (wordChars text.toList).reword fun complaint =>
    .framed "" complaint (", in keyword " ++ Text.quoted text)

def digit : Pattern := oneOf "0123456789".toList

def blank : Pattern := oneOf " \t\r\n".toList

def blanks : Pattern := many blank .joining

def comma : Pattern := character ','

def point : Pattern := character '.'

-- Whatever comes before the first match of `stop`.
def charactersTill (stop : Pattern) (combine : Combiner) : Pattern :=
  manyTill anyCharacter stop combine

-- A backslash and any character, which is the payload.
def escape : Pattern :=
  both (character Text.backslash) (seq anyCharacter anyCharacter .second) .second

-- Text between double quotes, where a backslash takes the next character as it is. The closing
-- quote is the last character of what is collected.
def quotedText : Pattern :=
  mapValue
    (seq (character Text.doubleQuote)
      (manyTill (alt escape anyCharacter) (character Text.doubleQuote) .joining) .second)
    Value.dropLast

end Abacus.Pattern
