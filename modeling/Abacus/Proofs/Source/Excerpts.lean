import Abacus.Proofs.Source.Positions
import Mathlib.Data.Nat.Digits.Defs

namespace Abacus

theorem newline_notMem_toDigits (n : Nat) : '\n' ∉ Nat.toDigits 10 n := by
  intro hmem
  have hdigit := Nat.isDigit_of_mem_toDigits (by decide) (by decide) hmem
  exact absurd hdigit (by decide)

theorem Excerpt.splitOn_text {excerpt : Excerpt} (hheadline : '\n' ∉ excerpt.headline.toList)
    (hsourceLine : '\n' ∉ excerpt.sourceLine.toList)
    (hunderline : '\n' ∉ excerpt.underline.toList) :
    excerpt.text.toList.splitOn '\n' =
      [excerpt.headline.toList, excerpt.sourceLine.toList, excerpt.underline.toList, []] := by
  have htext : excerpt.text.toList = ['\n'].intercalate
      [excerpt.headline.toList, excerpt.sourceLine.toList, excerpt.underline.toList, []] := by
    simp [text, List.intercalate]
  rw [htext]
  apply List.splitOn_intercalate
  · simp [hheadline, hsourceLine, hunderline]
  · simp

-- The sign for the newline of a line stands behind the line if the excerpt is about that newline, and
-- the sign for a missing one if the source asks for it.
def Source.newlineSigns (source : Source) (column : Nat) (line after : List Char) : List Char :=
  if after = [] then if source.marksMissingNewline then [newlineSign, crossMark] else []
  else if column = line.length + 1 then [newlineSign] else []

-- The parts of an excerpt of a place: `number` and `column` are its position, `length` is how much
-- is marked, and `after` is what the text has behind the line.
structure Excerpt.LinesUp (source : Source) (label message : String) (number column length : Nat)
    (line after : List Char) (excerpt : Excerpt) : Prop where
  lines : excerpt.text.toList.splitOn '\n' =
    [excerpt.headline.toList, excerpt.sourceLine.toList, excerpt.underline.toList, []]
  headline : excerpt.headline =
    (if label = "" then "" else label ++ ": ") ++ (if source.name = "" then "" else source.name ++ ":")
      ++ toString number ++ ":"
      ++ (if 0 < length then toString column ++ "-" ++ toString (column + length)
        else toString column)
      ++ ":" ++ (if message = "" then "" else " " ++ message)
  sourceLine : excerpt.sourceLine =
    (if line ++ source.newlineSigns column line after = [] then "|" else "| ")
      ++ String.ofList (line ++ source.newlineSigns column line after)
  underline : ∃ padding, excerpt.underline = "  " ++ String.ofList
      (padding ++ if length = 0 then ['^'] else List.replicate length '~') ∧
    padding.length = column - 1 ∧
    ∀ index < column - 1, padding[index]? = some (if line.getD index ' ' = '\t' then '\t' else ' ')

namespace Source

variable {source : Source} {first last : Nat} {before line after : List Char}
  {label message : String}

namespace LineOf

variable (h : source.LineOf first before line after)

include h

theorem take_ends : after = [] ∨ after.take 1 = ['\n'] := by
  rcases h.ends with rfl | ⟨back, rfl⟩
  · exact .inl rfl
  · exact .inr rfl

-- The characters from the beginning of the line to its end, its newline included.
theorem lineChars_eq :
    (source.chars.drop before.length).take (line.length + (after.take 1).length) =
      line ++ after.take 1 := by
  rw [h.whole, List.drop_left, List.take_length_add_append]
  rcases h.take_ends with rfl | hnewline
  · rfl
  · rw [hnewline]
    exact congrArg (line ++ ·) hnewline

theorem shownLine_eq (column : Nat) :
    source.shownLine (line ++ after.take 1) column =
      line ++ source.newlineSigns (column + 1) line after := by
  rcases h.ends with rfl | ⟨back, rfl⟩
  · have hlast : line.getLast? ≠ some '\n' := fun hlast => h.plain (List.mem_of_getLast? hlast)
    simp [shownLine, newlineSigns, hlast]
  · simp [shownLine, newlineSigns]

-- Tabs stay where they are, and all else is a space.
theorem underlinePadding_eq {index : Nat} (hindex : before.length + index < first) :
    (underlinePadding ((line ++ after.take 1).take (first - before.length)))[index]? =
      some (if line.getD index ' ' = '\t' then '\t' else ' ') := by
  have hsize := h.size_eq
  have hinside : index < (line ++ after.take 1).length := by
    rcases h.last with hlast | ⟨hlast, hafter⟩
    · rw [List.length_append]
      omega
    · rw [hafter] at hsize ⊢
      simp only [List.length_append, List.length_singleton, List.take_succ_cons,
        List.take_zero] at hsize ⊢
      omega
  have htake : ((line ++ after.take 1).take (first - before.length))[index]? =
      some (line ++ after.take 1)[index] := by
    rw [List.getElem?_take_of_lt (by omega), List.getElem?_eq_getElem hinside]
  rw [underlinePadding, List.getElem?_map, htake]
  by_cases hline : index < line.length
  · simp [hline]
  · rcases h.take_ends with rfl | hnewline
    · rw [List.take_nil, List.append_nil] at hinside
      exact absurd hinside hline
    · have hbehind : line.length ≤ index := by omega
      have hchar : (line ++ after.take 1)[index] = '\n' := by
        rw [List.getElem_append_right (by omega)]
        simp [hnewline]
      simp [hbehind, hchar]

theorem length_underlinePadding :
    (underlinePadding ((line ++ after.take 1).take (first - before.length))).length =
      first - before.length := by
  have hsize := h.size_eq
  rw [underlinePadding, List.length_map, List.length_take, List.length_append]
  rcases h.last with hlast | ⟨hlast, hafter⟩
  · omega
  · rw [hafter] at hsize ⊢
    simp only [List.length_singleton, List.take_succ_cons, List.take_zero] at hsize ⊢
    omega

end LineOf

-- The excerpt of a range of a text that was asked about before.
def excerptAfter (source : Source) (questions : List LineQuestion) (first last : Int)
    (label message : String) : Except Fault Excerpt :=
  ((source.findExcerpt first last label message).run (source.tableAfter questions)).1

theorem excerptAfter_eq (source : Source) (questions : List LineQuestion) (first last : Int)
    (label message : String) :
    source.excerptAfter questions first last label message =
      source.excerpt first last label message :=
  (LineM.Searches.findExcerpt source first last label message).answer_eq
    (truthful_tableAfter source questions)

theorem newline_notMem_newlineSigns (column : Nat) (line after : List Char) :
    '\n' ∉ source.newlineSigns column line after := by
  unfold newlineSigns
  repeat' split
  all_goals decide

theorem newline_notMem_headline (hname : '\n' ∉ source.name.toList) (hlabel : '\n' ∉ label.toList)
    (hmessage : '\n' ∉ message.toList) (number column length : Nat) :
    '\n' ∉ (source.headline label message number (columnText column length)).toList := by
  have hlabelled : '\n' ∉ (if label = "" then "" else label ++ ": ").toList := by
    split <;> simp [hlabel]
  have hnamed : '\n' ∉ (if source.name = "" then "" else source.name ++ ":").toList := by
    split <;> simp [hname]
  have hworded : '\n' ∉ (if message = "" then "" else " " ++ message).toList := by
    split <;> simp [hmessage]
  have hcolumns : '\n' ∉ (columnText column length).toList := by
    unfold columnText
    split <;> simp [newline_notMem_toDigits]
  simp [headline, hlabelled, hnamed, hworded, hcolumns, newline_notMem_toDigits]

theorem LineOf.newline_notMem_sourceLine (h : source.LineOf first before line after) (column : Nat) :
    '\n' ∉ ((if (line ++ source.newlineSigns column line after).isEmpty then "|" else "| ")
      ++ String.ofList (line ++ source.newlineSigns column line after)).toList := by
  have hsigns : '\n' ∉ source.newlineSigns column line after :=
    newline_notMem_newlineSigns column line after
  have hbar : '\n' ∉
      (if (line ++ source.newlineSigns column line after).isEmpty then "|" else "| ").toList := by
    split <;> decide
  simp only [String.toList_append, String.toList_ofList, List.mem_append, not_or]
  exact ⟨hbar, h.plain, hsigns⟩

theorem newline_notMem_underline (padded : List Char) (length : Nat) :
    '\n' ∉ ("  " ++ String.ofList (underlinePadding padded ++ underlineMark length)).toList := by
  have hpadding : '\n' ∉ underlinePadding padded := by
    intro hmem
    obtain ⟨c, -, hc⟩ := List.mem_map.mp hmem
    split at hc <;> cases hc
  have hmark : '\n' ∉ underlineMark length := by
    unfold underlineMark
    split <;> simp
  simpa using ⟨hpadding, hmark⟩

theorem columnText_eq (column length : Nat) : columnText column length =
    if 0 < length then toString column ++ "-" ++ toString (column + length)
    else toString column := by
  cases length with
  | zero => rfl
  | succ length => rfl

theorem LineOf.excerpt_eq (h : source.LineOf first before line after) (hrange : first ≤ last)
    (label message : String) {column length : Nat} (hcolumn : column = first - before.length)
    (hlength :
      length = min last (before.length + (line.length + (after.take 1).length)) - first) :
    source.excerpt first last label message = .ok {
      headline :=
        source.headline label message (before.count '\n') (columnText (column + 1) length)
      sourceLine :=
        (if (line ++ source.newlineSigns (column + 1) line after).isEmpty then "|" else "| ")
          ++ String.ofList (line ++ source.newlineSigns (column + 1) line after)
      underline := "  " ++ String.ofList
        (underlinePadding ((line ++ after.take 1).take column) ++ underlineMark length) } := by
  have hrange' : ¬((first : Int) < 0 ∨ (last : Int) < first) := by omega
  unfold excerpt findExcerpt
  rw [if_neg hrange', hcolumn, hlength]
  simp only [bind_pure_comp]
  rw [Faulting.run_map]
  simp only [h.lineIndex_eq, h.lineStart_eq, h.lineEnd_eq, Int.toNat_natCast,
    Nat.add_sub_cancel_left, h.lineChars_eq, h.shownLine_eq]
  rfl

-- What the excerpt of a range shows of the line on which the range begins.
theorem LineOf.exists_excerpt (h : source.LineOf first before line after) (hrange : first ≤ last)
    (hname : '\n' ∉ source.name.toList) (hlabel : '\n' ∉ label.toList)
    (hmessage : '\n' ∉ message.toList) :
    ∃ excerpt, source.excerpt first last label message = .ok excerpt ∧
      excerpt.LinesUp source label message (before.count '\n' + 1) (first - before.length + 1)
        (min last (before.length + (line.length + (after.take 1).length)) - first) line after := by
  generalize hlength : min last (before.length + (line.length + (after.take 1).length)) - first =
    length
  refine ⟨_, h.excerpt_eq hrange label message rfl hlength.symm, ?_, ?_, ?_, ?_⟩
  · exact Excerpt.splitOn_text (newline_notMem_headline hname hlabel hmessage _ _ _)
      (h.newline_notMem_sourceLine _) (newline_notMem_underline _ _)
  · rw [columnText_eq, headline]
  · simp only [List.isEmpty_iff]
  · refine ⟨_, rfl, ?_, fun index hindex => ?_⟩
    · rw [h.length_underlinePadding, Nat.add_sub_cancel]
    · exact h.underlinePadding_eq (by omega)

-- Whatever was asked before, the excerpt of a range is three lines. The first one has the position at
-- which the range begins, the second one is the line of that position, and the mark under it has the
-- columns of the range up to the end of the line.
theorem excerpts_line_up (source : Source) (questions : List LineQuestion) {first last : Nat}
    (label message : String) (hrange : first ≤ last) (hinside : first ≤ source.size)
    (hname : '\n' ∉ source.name.toList) (hlabel : '\n' ∉ label.toList)
    (hmessage : '\n' ∉ message.toList) :
    ∃ (excerpt : Excerpt) (number column length : Nat) (before line after : List Char),
      source.excerptAfter questions first last label message = .ok excerpt ∧
      source.positionAfter questions first = .ok ⟨number, column⟩ ∧
      source.LineOf first before line after ∧
      length = min last (before.length + (line.length + (after.take 1).length)) - first ∧
      excerpt.LinesUp source label message number column length line after := by
  obtain ⟨before, line, after, h⟩ := exists_lineOf hinside
  obtain ⟨excerpt, hexcerpt, hlines⟩ := h.exists_excerpt hrange hname hlabel hmessage
  refine ⟨excerpt, _, _, _, before, line, after, ?_, ?_, h, rfl, hlines⟩
  · rw [excerptAfter_eq, hexcerpt]
  · rw [positionAfter_eq, h.position_eq]

-- A range over two lines that begins at a tab, in a text without a newline at its end.
theorem excerpts_line_up_over_two_lines :
    ∃ (excerpt : Excerpt) (number column length : Nat) (line after : List Char),
      Source.excerptAfter (.of "f" "a\n\tb\tc\nd") [.line 8] (4 : Nat) (8 : Nat) "oh" "no" =
        .ok excerpt ∧
      excerpt.LinesUp (.of "f" "a\n\tb\tc\nd") "oh" "no" number column length line after ∧
      excerpt.headline = "oh: f:2:3-6: no" ∧ excerpt.sourceLine = "| \tb\tc" ∧
      excerpt.underline = "  \t ~~~" := by
  obtain ⟨excerpt, number, column, length, before, line, after, hexcerpt, -, -, -, hlines⟩ :=
    excerpts_line_up (.of "f" "a\n\tb\tc\nd") [.line 8] "oh" "no" (show 4 ≤ 8 by decide)
      (by decide) (by decide) (by decide) (by decide)
  have hparts : Source.excerptAfter (.of "f" "a\n\tb\tc\nd") [.line 8] (4 : Nat) (8 : Nat) "oh"
      "no" = .ok ⟨"oh: f:2:3-6: no", "| \tb\tc", "  \t ~~~"⟩ := by decide
  obtain rfl := Except.ok.inj (hexcerpt.symm.trans hparts)
  exact ⟨_, number, column, length, line, after, hparts, hlines, rfl, rfl, rfl⟩

end Source

end Abacus
