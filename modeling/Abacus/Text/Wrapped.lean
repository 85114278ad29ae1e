import Abacus.Text.Blank
import Abacus.Text.Quoted

namespace Abacus.Text

-- The characters that end a line, of which a carriage return and a line feed together are one end.
def isLineEnd (c : Char) : Bool :=
  let n := c.toNat
  (10 ≤ n && n ≤ 13) || (0x1c ≤ n && n ≤ 0x1e) || n = 0x85 || n = 0x2028 || n = 0x2029

-- The blanks that may end a piece, the separators 0x1c to 0x1f included.
def isGap (c : Char) : Bool := isBlank c || (0x1c ≤ c.toNat && c.toNat ≤ 0x1f)

-- A character at the beginning of the first part.
def prepend (c : Char) : List (List Char) → List (List Char)
  | [] => [[c]]
  | part :: parts => (c :: part) :: parts

-- The lines with their ends.
def lines : List Char → List (List Char)
  | [] => []
  | '\r' :: '\n' :: rest => ['\r', '\n'] :: lines rest
  | c :: rest => if isLineEnd c then [c] :: lines rest else prepend c (lines rest)

-- The words with the blanks behind them. Blanks in front are a word of their own.
def words : List Char → List (List Char)
  | [] => []
  | c :: rest =>
      if isGap c && rest.head?.any (!isGap ·) then [c] :: words rest
      else prepend c (words rest)

-- Puts words together as long as they fit with their quotes. The last piece has a width of its
-- own, and a word that is too long is a piece of its own.
def pack (width lastWidth : Int) (piece : List Char) : List (List Char) → List (List Char)
  | [] => if piece.isEmpty then [] else [piece]
  | word :: more =>
      let room := if more.isEmpty then lastWidth else width
      if (quotedChars (piece ++ word)).length ≤ room then pack width lastWidth (piece ++ word) more
      else if piece.isEmpty then pack width lastWidth word more
      else piece :: pack width lastWidth word more

def linePieces (width lastWidth : Int) (line : List Char) : List (List Char) :=
  if (quotedChars line).length ≤ lastWidth then [line] else pack width lastWidth [] (words line)

def piecesOfLines (width lastWidth : Int) : List (List Char) → List (List Char)
  | [] => []
  | [line] => linePieces width lastWidth line
  | line :: more => linePieces width width line ++ piecesOfLines width lastWidth more

-- The pieces of a text, each narrower than `width` where its words allow it, the last one narrower
-- than `lastWidth`.
def pieces (width lastWidth : Int) (text : List Char) : List (List Char) :=
  piecesOfLines width lastWidth (lines text)

theorem flatten_prepend (c : Char) (parts : List (List Char)) :
    (prepend c parts).flatten = c :: parts.flatten := by
  cases parts <;> simp [prepend]

theorem flatten_lines (text : List Char) : (lines text).flatten = text := by
  fun_induction lines text with
  | case1 => rfl
  | case2 rest ih => simp [ih]
  | case3 c rest hpair hend ih => simp [ih]
  | case4 c rest hpair hend ih => rw [flatten_prepend, ih]

theorem flatten_words (text : List Char) : (words text).flatten = text := by
  fun_induction words text with
  | case1 => rfl
  | case2 c rest hgap ih => simp [ih]
  | case3 c rest hgap ih => rw [flatten_prepend, ih]

theorem flatten_pack (width lastWidth : Int) (piece : List Char) (parts : List (List Char)) :
    (pack width lastWidth piece parts).flatten = piece ++ parts.flatten := by
  fun_induction pack width lastWidth piece parts with
  | case1 piece hempty => simp_all
  | case2 piece hempty => simp
  | case3 piece word more room hfits ih => simp [ih]
  | case4 piece word more room hfits hempty ih => simp_all
  | case5 piece word more room hfits hempty ih => simp [ih]

theorem flatten_linePieces (width lastWidth : Int) (line : List Char) :
    (linePieces width lastWidth line).flatten = line := by
  unfold linePieces
  split
  · simp
  · rw [flatten_pack, flatten_words, List.nil_append]

theorem flatten_piecesOfLines (width lastWidth : Int) (parts : List (List Char)) :
    (piecesOfLines width lastWidth parts).flatten = parts.flatten := by
  fun_induction piecesOfLines width lastWidth parts with
  | case1 => rfl
  | case2 line => simp [flatten_linePieces]
  | case3 line more hmore ih => simp [flatten_linePieces, ih]

-- Cutting a text loses nothing.
theorem flatten_pieces (width lastWidth : Int) (text : List Char) :
    (pieces width lastWidth text).flatten = text := by
  rw [pieces, flatten_piecesOfLines, flatten_lines]

end Abacus.Text
