import Abacus.Text.Wrapped
import Abacus.Tree.Skeleton
import Abacus.Value.Shown

namespace Abacus

structure Layout where
  width : Int := 80
  -- By how much the items stand behind their bracket.
  indent : Nat := 2

namespace Layout

-- No value fits into a negative width, so that everything is broken; a width of zero is refused.
def make (width indent : Int) : Except Fault Layout :=
  if indent < 0 then .error .negativeIndent
  else if width = 0 then .error .noWidth
  else .ok ⟨width, indent.toNat⟩

def blanks (count : Nat) : String := String.ofList (List.replicate count ' ')

-- Whether a text fits behind `column`, with `reserved` characters to follow it.
def fits (layout : Layout) (column reserved : Nat) (text : String) : Bool :=
  (text.length : Int) ≤ layout.width - column - reserved

def closing : List Value → String
  | [_] => ",)"
  | _ => ")"

-- The pieces of a text stand below each other.
def joinPieces (column : Nat) (pieces : List (List Char)) : String :=
  ("\n" ++ blanks column).intercalate
    (pieces.map fun piece => String.ofList (Text.quotedChars piece))

def textPieces (layout : Layout) (column reserved : Nat) (text : String) : List (List Char) :=
  let room := layout.width - column
  Text.pieces room (room - reserved) text.toList

def writeText (layout : Layout) (column reserved : Nat) (text : String) : String :=
  if layout.fits column reserved (Text.quoted text) || text = "" then Text.quoted text
  else joinPieces column (layout.textPieces column reserved text)

-- A text of several pieces that is not part of another value has parentheses around it.
def writeWholeText (layout : Layout) (text : String) : String :=
  if layout.fits 0 0 (Text.quoted text) || text = "" then Text.quoted text
  else
    match layout.textPieces 1 1 text with
    | [_] => Text.quoted text
    | pieces => "(" ++ joinPieces 1 pieces ++ ")"

-- The components of a node stand below each other.
def writeNode (column : Nat) (name : String) (components : List (String × String)) : String :=
  let lines := components.map fun (key, text) => key ++ "=" ++ text
  name ++ "(" ++ (",\n" ++ blanks (column + name.length + 1)).intercalate lines ++ ")"

mutual

-- `column` is where the value begins, and `reserved` is the room that its line has to leave. The
-- last item of a tuple or a list leaves room for the closing bracket as well, every other item
-- for its comma.
def write (layout : Layout) (column reserved : Nat) (value : Value) : String :=
  if layout.fits column reserved value.shown then value.shown
  else
    match value with
    | .tuple items =>
        let close := closing items
        "(" ++ blanks (layout.indent - 1)
          ++ writeAll layout (column + layout.indent) (reserved + close.length) items ++ close
    | .list items =>
        "[" ++ blanks (layout.indent - 1)
          ++ writeAll layout (column + layout.indent) (reserved + 1) items ++ "]"
    | .str text => layout.writeText column reserved text
    | .binary operator left right =>
        writeNode column "BinOp" [
          ("t", Text.quoted operator.symbol),
          ("l", write layout (column + 8) 1 left),
          ("r", write layout (column + 8) reserved right)]
    | .call name arguments =>
        writeNode column "Func" [
          ("func", layout.writeText (column + 10) 1 name),
          ("c", write layout (column + 7) reserved arguments)]
    | .argument first rest =>
        writeNode column "Arg" [
          ("c", write layout (column + 6) 1 first),
          ("r", write layout (column + 6) reserved rest)]
    | .root tree => writeNode column "Root" [("c", write layout (column + 7) reserved tree)]
    | value => value.shown

def writeAll (layout : Layout) (column reserved : Nat) : List Value → String
  | [] => ""
  | [item] => write layout column reserved item
  | item :: items =>
      write layout column 1 item ++ ",\n" ++ blanks column ++ writeAll layout column reserved items

end

def writeWhole (layout : Layout) : Value → String
  | .str text => layout.writeWholeText text
  | value => layout.write 0 0 value

-- The value behind its labels, as a paragraph.
def paragraph (layout : Layout) (labels : List Value) (value : Value) : String :=
  let labelled :=
    if labels.isEmpty then "" else " ".intercalate (labels.map Value.plain) ++ ": "
  labelled ++ layout.writeWhole value ++ "\n"

end Layout

end Abacus
