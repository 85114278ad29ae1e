import Abacus.Fault
import Abacus.Source.Basic

namespace Abacus

-- The newlines found so far, in increasing order. They are looked for as far as a question needs.
structure LineTable where
  newlines : List Nat := []
deriving DecidableEq, Repr

-- A question about lines may extend the table, even where it fails.
abbrev LineM := ExceptT Fault (StateM LineTable)

-- A one-based line and column, or the null position.
structure Position where
  line : Int
  column : Int
deriving DecidableEq, Repr

namespace Position

def null : Position := ⟨-1, -1⟩

def isNull (position : Position) : Bool := position.line < 0

def shown (position : Position) : String :=
  toString position.line ++ ":" ++ toString position.column

end Position

-- The offsets of the newlines in a stretch of text that begins at `offset`.
def newlineOffsets (offset : Nat) : List Char → List Nat
  | [] => []
  | c :: rest =>
      if c = '\n' then offset :: newlineOffsets (offset + 1) rest
      else newlineOffsets (offset + 1) rest

-- The first offset that may hold a newline not yet in the table.
def LineTable.resume (table : LineTable) : Nat :=
  match table.newlines.getLast? with
  | none => 0
  | some offset => offset + 1

namespace Source

def endsWithNewline (source : Source) : Bool := source.chars.getLast? = some '\n'

-- Adds the newlines before `bound`.
def extend (source : Source) (bound : Int) (table : LineTable) : LineTable :=
  let first := table.resume
  ⟨table.newlines ++
    newlineOffsets first ((source.chars.drop first).take (bound - first).toNat)⟩

-- A bound past the end of the text is refused once the whole text has been searched.
def findNewlines (source : Source) (bound : Int) : LineM Unit := do
  modify (source.extend bound)
  if (source.size : Int) < bound then throw .pastEndOfText

-- The zero-based line. The end of a text that ends with a newline is still on its last line.
def lineIndex (source : Source) (offset : Int) : LineM Nat := do
  if offset < 0 ∨ source.size < offset then throw (.noSuchOffset offset)
  source.findNewlines offset
  let table ← get
  if offset = source.size ∧ source.endsWithNewline then
    return table.newlines.length - 1
  return table.newlines.countP fun (newline : Nat) => (newline : Int) < offset

-- A negative bound counts from the end, and bounds outside the text are moved to its edges.
def clip (source : Source) (bound : Int) : Nat :=
  if bound < 0 then (source.size + bound).toNat else min bound.toNat source.size

-- The offset at which the line of `offset` begins.
def lineStart (source : Source) (offset : Int) : Nat :=
  let inside := if offset = source.size ∧ source.endsWithNewline then offset - 1 else offset
  match (newlineOffsets 0 (source.chars.take (source.clip inside))).getLast? with
  | none => 0
  | some newline => newline + 1

-- The offset behind the line of `offset`; its newline is the last character of a line.
def lineEnd (source : Source) (offset : Int) : Nat :=
  let first := source.clip offset
  match (newlineOffsets first (source.chars.drop first)).head? with
  | none => source.size
  | some newline => newline + 1

-- Negative offsets have the null position.
def findPosition (source : Source) (offset : Int) : LineM Position := do
  if offset < 0 then return .null
  let index ← source.lineIndex offset
  return ⟨index + 1, offset - source.lineStart offset + 1⟩

-- The position of an offset of a text whose lines were not asked for before.
def position (source : Source) (offset : Int) : Except Fault Position :=
  ((source.findPosition offset).run {}).1

end Source

end Abacus
