import Abacus.Source.Line

namespace Abacus

-- Three lines of text.
structure Excerpt where
  headline : String
  sourceLine : String
  underline : String
deriving DecidableEq, Repr

def Excerpt.text (excerpt : Excerpt) : String :=
  excerpt.headline ++ "\n" ++ excerpt.sourceLine ++ "\n" ++ excerpt.underline ++ "\n"

-- The sign for a newline, and the same sign crossed out for a missing one.
def newlineSign : Char := '\u23ce'

def crossMark : Char := '\u0353'

-- Tabs stay tabs, so that the mark lines up under the text.
def underlinePadding (before : List Char) : List Char :=
  before.map fun c => if c = '\t' then '\t' else ' '

def underlineMark (length : Nat) : List Char :=
  if length = 0 then ['^'] else List.replicate length '~'

-- A column, or the first and the last column of a range.
def columnText (first length : Nat) : String :=
  if length = 0 then toString first
  else toString first ++ "-" ++ toString (first + length)

namespace Source

-- The line without its newline. The newline is shown where it is what the message is about, and a
-- missing one where the source asks for it.
def shownLine (source : Source) (line : List Char) (column : Nat) : List Char :=
  if line.getLast? = some '\n' then
    line.dropLast ++ if column + 1 = line.length then [newlineSign] else []
  else line ++ if source.marksMissingNewline then [newlineSign, crossMark] else []

def headline (source : Source) (label message : String) (line : Nat) (columns : String) :
    String :=
  let labelled := if label = "" then "" else label ++ ": "
  let named := if source.name = "" then "" else source.name ++ ":"
  let worded := if message = "" then "" else " " ++ message
  labelled ++ named ++ toString (line + 1) ++ ":" ++ columns ++ ":" ++ worded

-- A range is cut at the end of its first line, and an empty one is marked by a caret.
def findExcerpt (source : Source) (first last : Int) (label message : String) :
    LineM Excerpt := do
  if first < 0 ∨ last < first then throw (.badRange first last)
  let line ← source.lineIndex first
  let start := source.lineStart first
  let stop := source.lineEnd first
  let column := first.toNat - start
  let length := min last.toNat stop - first.toNat
  let lineChars := (source.chars.drop start).take (stop - start)
  let shown := source.shownLine lineChars column
  let bar := if shown.isEmpty then "|" else "| "
  return {
    headline := source.headline label message line (columnText (column + 1) length)
    sourceLine := bar ++ String.ofList shown
    underline := "  " ++
      String.ofList (underlinePadding (lineChars.take column) ++ underlineMark length) }

def excerpt (source : Source) (first last : Int) (label message : String) :
    Except Fault Excerpt :=
  ((source.findExcerpt first last label message).run {}).1

end Source

end Abacus
