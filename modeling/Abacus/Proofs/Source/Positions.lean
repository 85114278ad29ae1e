import Abacus.Proofs.Source.Lines
import Mathlib.Data.List.Induction

namespace Abacus

theorem length_newlineOffsets (offset : Nat) (text : List Char) :
    (newlineOffsets offset text).length = text.count '\n' := by
  induction text generalizing offset with
  | nil => rfl
  | cons c text ih =>
    simp only [newlineOffsets, List.count_cons, beq_iff_eq]
    split <;> simp [ih]

theorem newlineOffsets_eq_nil {text : List Char} (h : '\n' ∉ text) (offset : Nat) :
    newlineOffsets offset text = [] := by
  rw [← List.length_eq_zero_iff, length_newlineOffsets]
  exact List.count_eq_zero.mpr h

-- The line at the end of a text, and the one at its beginning.
theorem exists_last_line (text : List Char) :
    ∃ before line, text = before ++ line ∧ '\n' ∉ line ∧
      (before = [] ∨ ∃ front, before = front ++ ['\n']) := by
  induction text using List.reverseRecOn with
  | nil => exact ⟨[], [], rfl, by simp, .inl rfl⟩
  | append_singleton text c ih =>
    by_cases hc : c = '\n'
    · subst hc
      exact ⟨text ++ ['\n'], [], by simp, by simp, .inr ⟨text, rfl⟩⟩
    · obtain ⟨before, line, rfl, hplain, hbefore⟩ := ih
      refine ⟨before, line ++ [c], by simp, ?_, hbefore⟩
      simpa using ⟨hplain, Ne.symm hc⟩

theorem exists_first_line (text : List Char) :
    ∃ line after, text = line ++ after ∧ '\n' ∉ line ∧
      (after = [] ∨ ∃ back, after = '\n' :: back) := by
  induction text with
  | nil => exact ⟨[], [], rfl, by simp, .inl rfl⟩
  | cons c text ih =>
    by_cases hc : c = '\n'
    · subst hc
      exact ⟨[], '\n' :: text, rfl, by simp, .inr ⟨text, rfl⟩⟩
    · obtain ⟨line, after, rfl, hplain, hafter⟩ := ih
      refine ⟨c :: line, after, rfl, ?_, hafter⟩
      simpa using ⟨Ne.symm hc, hplain⟩

-- A position is before another one on an earlier line, and on the same line further to the left.
def Position.Before (position other : Position) : Prop :=
  position.line < other.line ∨ position.line = other.line ∧ position.column < other.column

theorem Position.Before.ne {position other : Position} (h : position.Before other) :
    position ≠ other := by
  rintro rfl
  rcases h with h | ⟨-, h⟩
  · exact Int.lt_irrefl _ h
  · exact Int.lt_irrefl _ h

theorem LineM.Searches.answer_eq {α : Type} {source : Source} {offset : Int} {x : LineM α}
    {table : LineTable} (h : Searches source offset x) (htable : table.Truthful source) :
    (x.run table).1 = (x.run {}).1 := by
  obtain ⟨answer, searched, -, hrun⟩ := h
  rw [hrun table htable, hrun {} (.empty source)]

namespace Source

variable {source : Source} {offset first second : Nat} {before line after : List Char}

-- The line of an offset, without its newline. A newline ends a line: the end of the text is on the
-- last line also behind a newline, where no further line begins.
structure LineOf (source : Source) (offset : Nat) (before line after : List Char) : Prop where
  whole : source.chars = before ++ (line ++ after)
  plain : '\n' ∉ line
  begins : before = [] ∨ ∃ front, before = front ++ ['\n']
  ends : after = [] ∨ ∃ back, after = '\n' :: back
  real : line ++ after = [] → before = []
  first : before.length ≤ offset
  last : offset ≤ before.length + line.length ∨ offset = source.size ∧ after = ['\n']

theorem exists_lineOf (h : offset ≤ source.size) :
    ∃ before line after, source.LineOf offset before line after := by
  by_cases hend : offset = source.size ∧ ∃ front, source.chars = front ++ ['\n']
  · obtain ⟨rfl, front, hfront⟩ := hend
    obtain ⟨before, line, rfl, hplain, hbefore⟩ := exists_last_line front
    refine ⟨before, line, ['\n'], ?_, hplain, hbefore, .inr ⟨[], rfl⟩, by simp, ?_, .inr ⟨rfl, rfl⟩⟩
    · rw [hfront, List.append_assoc]
    · rw [← length_chars, hfront]
      simp only [List.length_append]
      omega
  · obtain ⟨before, line, hfront, hplain, hbefore⟩ := exists_last_line (source.chars.take offset)
    obtain ⟨line', after, hback, hplain', hafter⟩ := exists_first_line (source.chars.drop offset)
    have hwhole : source.chars = before ++ (line ++ line' ++ after) := by
      rw [← List.take_append_drop offset source.chars, hfront, hback]
      simp only [List.append_assoc]
    have hlength : before.length + line.length = offset := by
      rw [← List.length_append, ← hfront, List.length_take, length_chars]
      omega
    refine ⟨before, line ++ line', after, hwhole, ?_, hbefore, hafter, fun hnil => ?_, by omega,
      .inl ?_⟩
    · simpa using ⟨hplain, hplain'⟩
    · rcases hbefore with rfl | ⟨front, rfl⟩
      · rfl
      · rw [hnil, List.append_nil] at hwhole
        simp only [List.append_eq_nil_iff] at hnil
        have hsize : offset = source.size := by
          rw [← length_chars, hwhole, ← hlength, hnil.1.1]
          rfl
        exact absurd ⟨hsize, front, hwhole⟩ hend
    · rw [List.length_append]
      omega

-- All that the position of an offset says: its line is numbered by the newlines in front of it, and
-- its column counts from behind the newline that ends the line before.
structure PlacedAt (source : Source) (offset line column : Nat) : Prop where
  numbered : line = (source.chars.take offset).count '\n' -
    (if offset = source.size ∧ source.chars.getLast? = some '\n' then 1 else 0) + 1
  firstLine : line = 1 → source.lineStart offset = 0
  laterLine : 1 < line → ∃ newline, source.chars[newline]? = some '\n' ∧
    (source.chars.take newline).count '\n' + 1 = line - 1 ∧ source.lineStart offset = newline + 1
  counted : offset = source.lineStart offset + column - 1
  positive : 1 ≤ column

namespace LineOf

variable (h : source.LineOf offset before line after)

include h

theorem size_eq : source.size = before.length + (line.length + after.length) := by
  rw [← length_chars, h.whole, List.length_append, List.length_append]

theorem le_size : offset ≤ source.size := by
  have hsize := h.size_eq
  rcases h.last with hlast | ⟨hlast, -⟩ <;> omega

-- The end of a text behind its last newline is one past the line.
theorem atEnd_iff : offset = source.size ∧ source.endsWithNewline = true ↔
    offset = before.length + line.length + 1 ∧ after = ['\n'] := by
  have hsize := h.size_eq
  constructor
  · rintro ⟨hoffset, hnewline⟩
    rcases h.last with hlast | ⟨-, hafter⟩
    · have hnil : after = [] := List.length_eq_zero_iff.mp (by omega)
      have hchars : source.chars = before ++ line := by rw [h.whole, hnil, List.append_nil]
      have hmem : source.chars.getLast? = some '\n' := by simpa [endsWithNewline] using hnewline
      rw [hchars, List.getLast?_append] at hmem
      cases hline : line.getLast? with
      | none =>
        obtain rfl := List.getLast?_eq_none_iff.mp hline
        rw [h.real (by rw [hnil]; rfl)] at hmem
        cases hmem
      | some c =>
        rw [hline] at hmem
        obtain rfl : c = '\n' := by simpa using hmem
        exact absurd (List.mem_of_getLast? hline) h.plain
    · rw [hafter] at hsize
      exact ⟨by simpa [Nat.add_assoc] using hoffset.trans hsize, hafter⟩
  · rintro ⟨hoffset, hafter⟩
    rw [hafter] at hsize
    refine ⟨by simpa [Nat.add_assoc] using hoffset.trans hsize.symm, ?_⟩
    simp [endsWithNewline, h.whole, hafter]

theorem take_eq_of_not_atEnd (hend : ¬(offset = source.size ∧ source.endsWithNewline = true)) :
    offset ≤ before.length + line.length ∧
      source.chars.take offset = before ++ line.take (offset - before.length) := by
  have hlast : offset ≤ before.length + line.length := by
    rcases h.last with hlast | ⟨hlast, hafter⟩
    · exact hlast
    · refine absurd (h.atEnd_iff.mpr ⟨?_, hafter⟩) hend
      have hsize := h.size_eq
      rw [hafter] at hsize
      simpa [Nat.add_assoc] using hlast.trans hsize
  refine ⟨hlast, ?_⟩
  have hfirst := h.first
  rw [h.whole, List.take_append, List.take_of_length_le hfirst,
    List.take_append_of_le_length (by omega)]

theorem count_take_line (count : Nat) : (line.take count).count '\n' = 0 :=
  List.count_eq_zero.mpr fun hmem => h.plain (List.mem_of_mem_take hmem)

-- The newlines in front of an offset are those in front of its line, but for one at the very end.
theorem count_take : (source.chars.take offset).count '\n' =
    before.count '\n' + if offset = source.size ∧ source.endsWithNewline = true then 1 else 0 := by
  by_cases hend : offset = source.size ∧ source.endsWithNewline = true
  · rw [if_pos hend, hend.1, ← length_chars, List.take_length, h.whole,
      (h.atEnd_iff.mp hend).2, List.count_append, List.count_append, List.count_eq_zero.mpr h.plain]
    rfl
  · rw [if_neg hend, (h.take_eq_of_not_atEnd hend).2, List.count_append, h.count_take_line]

-- The search backwards comes to the newline in front of the line.
theorem lineStart_eq : source.lineStart offset = before.length := by
  have hsize := h.size_eq
  have hle := h.le_size
  have hinside : ∃ count, source.chars.take (source.clip
      (if (offset : Int) = source.size ∧ source.endsWithNewline then (offset : Int) - 1 else offset)) =
        before ++ line.take count := by
    by_cases hend : offset = source.size ∧ source.endsWithNewline = true
    · obtain ⟨hoffset, hafter⟩ := h.atEnd_iff.mp hend
      have hclip : source.clip ((offset : Int) - 1) = (before ++ line).length := by
        rw [clip, if_neg (by omega), List.length_append]
        omega
      refine ⟨line.length, ?_⟩
      rw [if_pos ⟨by omega, hend.2⟩, hclip, h.whole, ← List.append_assoc, List.take_left,
        List.take_length]
    · have hend' : ¬((offset : Int) = source.size ∧ source.endsWithNewline = true) :=
        fun hint => hend ⟨by omega, hint.2⟩
      have hclip : source.clip offset = offset := by
        rw [clip, if_neg (by omega), Int.toNat_natCast, Nat.min_eq_left hle]
      exact ⟨_, by rw [if_neg hend', hclip, (h.take_eq_of_not_atEnd hend).2]⟩
  obtain ⟨count, hcount⟩ := hinside
  have hnone : '\n' ∉ line.take count := fun hmem => h.plain (List.mem_of_mem_take hmem)
  simp only [lineStart, hcount, newlineOffsets_append, newlineOffsets_eq_nil hnone, List.append_nil]
  rcases h.begins with rfl | ⟨front, rfl⟩
  · rfl
  · simp [newlineOffsets_append, newlineOffsets]

-- The search forwards comes to the newline that ends the line, if there is one.
theorem lineEnd_eq :
    source.lineEnd offset = before.length + (line.length + (after.take 1).length) := by
  have hsize := h.size_eq
  have hfirst := h.first
  have hclip : source.clip offset = offset := by
    rw [clip, if_neg (by omega), Int.toNat_natCast, Nat.min_eq_left h.le_size]
  simp only [lineEnd, hclip]
  rcases h.last with hlast | ⟨hlast, hafter⟩
  · have hnone : '\n' ∉ line.drop (offset - before.length) :=
      fun hmem => h.plain (List.mem_of_mem_drop hmem)
    have hdrop : source.chars.drop offset = line.drop (offset - before.length) ++ after := by
      rw [h.whole, List.drop_append, List.drop_eq_nil_of_le hfirst, List.nil_append,
        List.drop_append_of_le_length (by omega)]
    have hreach : offset + (line.length - (offset - before.length)) =
        before.length + line.length := by omega
    rw [hdrop, newlineOffsets_append, newlineOffsets_eq_nil hnone, List.nil_append,
      List.length_drop, hreach]
    rcases h.ends with rfl | ⟨back, rfl⟩
    · exact hsize
    · simp [newlineOffsets, Nat.add_assoc]
  · rw [hlast, ← length_chars, List.drop_length, length_chars, hsize, hafter]
    rfl

theorem lineIndex_eq : ((source.lineIndex offset).run {}).1 = .ok (before.count '\n') := by
  have hle := h.le_size
  have houtside : ¬((offset : Int) < 0 ∨ (source.size : Int) < (offset : Int)) := by omega
  have hsearched : ¬(source.size : Int) < (offset : Int) := by omega
  have hfound : (source.extend offset {}).newlines = source.newlinesBefore offset := by
    have hextend := (LineTable.Truthful.empty source).newlines_extend offset
    rwa [Int.toNat_natCast, LineTable.resume, List.getLast?_nil, Nat.zero_max] at hextend
  have hlength : (source.newlinesBefore offset).length = (source.chars.take offset).count '\n' :=
    length_newlineOffsets 0 _
  rw [h.count_take] at hlength
  unfold lineIndex findNewlines
  rw [if_neg houtside, if_neg hsearched]
  by_cases hend : offset = source.size ∧ source.endsWithNewline = true
  · have hend' : (offset : Int) = source.size ∧ source.endsWithNewline = true :=
      ⟨congrArg _ hend.1, hend.2⟩
    rw [if_pos hend, ← hfound] at hlength
    have hindex : (source.extend offset {}).newlines.length - 1 = before.count '\n' := by omega
    simp only [if_pos hend', ← hindex]
    rfl
  · have hend' : ¬((offset : Int) = source.size ∧ source.endsWithNewline = true) :=
      fun hint => hend ⟨by omega, hint.2⟩
    rw [if_neg hend, Nat.add_zero, ← countP_newlinesBefore hle (Nat.le_refl offset), ← hfound]
      at hlength
    simp only [if_neg hend', ← hlength]
    rfl

theorem placedAt : source.PlacedAt offset (before.count '\n' + 1) (offset - before.length + 1) where
  numbered := by
    have hcount := h.count_take
    simp only [endsWithNewline, decide_eq_true_eq] at hcount
    omega
  firstLine hline := by
    rw [h.lineStart_eq]
    rcases h.begins with rfl | ⟨front, rfl⟩
    · rfl
    · simp at hline
  laterLine hline := by
    rw [h.lineStart_eq]
    rcases h.begins with rfl | ⟨front, rfl⟩
    · exact absurd hline (by decide)
    · refine ⟨front.length, ?_, ?_, by simp⟩
      · simp [h.whole]
      · rw [h.whole, List.append_assoc, List.take_left, List.count_append]
        simp
  counted := by
    have hfirst := h.first
    rw [h.lineStart_eq]
    omega
  positive := Nat.succ_pos _

end LineOf

-- The position of an offset of a text that was asked about before.
def positionAfter (source : Source) (questions : List LineQuestion) (offset : Int) :
    Except Fault Position :=
  ((source.findPosition offset).run (source.tableAfter questions)).1

theorem positionAfter_eq (source : Source) (questions : List LineQuestion) (offset : Int) :
    source.positionAfter questions offset = source.position offset :=
  (LineM.Searches.findPosition source offset).answer_eq (truthful_tableAfter source questions)

theorem LineOf.position_eq (h : source.LineOf offset before line after) :
    source.position offset =
      .ok ⟨(before.count '\n' + 1 : Nat), (offset - before.length + 1 : Nat)⟩ := by
  have hfirst := h.first
  have hcolumn : (offset : Int) - before.length + 1 = (offset - before.length + 1 : Nat) := by omega
  unfold position findPosition
  rw [if_neg (by omega), bind_pure_comp, Faulting.run_map]
  simp only [h.lineIndex_eq, h.lineStart_eq, hcolumn]
  rfl

-- The same line further on.
theorem LineOf.of_le (h : source.LineOf second before line after) (hfirst : before.length ≤ first)
    (hlt : first < second) : source.LineOf first before line after where
  whole := h.whole
  plain := h.plain
  begins := h.begins
  ends := h.ends
  real := h.real
  first := hfirst
  last := by
    have hsize := h.size_eq
    rcases h.last with hlast | ⟨hlast, hafter⟩
    · exact .inl (by omega)
    · rw [hafter, List.length_singleton] at hsize
      exact .inl (by omega)

-- Further on in a text is further on in its line, or on a later line.
theorem before_of_lt (hlt : first < second) (hsecond : second ≤ source.size) :
    ∃ position other, source.position first = .ok position ∧ source.position second = .ok other ∧
      position.Before other := by
  obtain ⟨before, line, after, h⟩ := exists_lineOf hsecond
  by_cases hsame : before.length ≤ first
  · refine ⟨_, _, (h.of_le hsame hlt).position_eq, h.position_eq, .inr ⟨rfl, ?_⟩⟩
    simp only
    omega
  · obtain ⟨before', line', after', h'⟩ := exists_lineOf (Nat.le_of_lt (Nat.lt_of_lt_of_le hlt hsecond))
    refine ⟨_, _, h'.position_eq, h.position_eq, .inl ?_⟩
    rcases h.begins with rfl | ⟨front, rfl⟩
    · simp at hsame
    have hfront : first ≤ front.length := by
      rw [List.length_append, List.length_singleton] at hsame
      omega
    have hcount : (source.chars.take first).count '\n' ≤ front.count '\n' := by
      rw [h.whole, List.append_assoc, List.take_append_of_le_length hfront]
      exact (List.take_sublist _ _).count_le _
    rw [h'.count_take] at hcount
    simp only [List.count_append, List.count_singleton_self]
    omega

theorem position_ne_of_lt (hlt : first < second) (hsecond : second ≤ source.size) :
    source.position first ≠ source.position second := by
  obtain ⟨position, other, hposition, hother, hbefore⟩ := before_of_lt hlt hsecond
  rw [hposition, hother]
  exact fun heq => hbefore.ne (Except.ok.inj heq)

theorem position_eq_error {offset : Int} (h : source.size < offset) :
    source.position offset = .error (.noSuchOffset offset) := by
  have hoffset : ¬offset < 0 := by omega
  unfold position findPosition lineIndex
  rw [if_neg hoffset, if_pos (.inr h)]
  rfl

theorem position_eq_null {offset : Int} (h : offset < 0) : source.position offset = .ok .null := by
  unfold position findPosition
  rw [if_pos h]
  rfl

-- Whatever was asked before, every offset of a text has its position, positions go up with offsets,
-- and past the two ends of the text there are none.
theorem positions_are_faithful (source : Source) :
    (∀ (questions : List LineQuestion) (offset : Nat), offset ≤ source.size →
      ∃ line column : Nat, source.positionAfter questions offset = .ok ⟨line, column⟩ ∧
        source.PlacedAt offset line column) ∧
      (∀ (questions questions' : List LineQuestion) (first second : Nat),
        first < second → second ≤ source.size →
        ∃ position other, source.positionAfter questions first = .ok position ∧
          source.positionAfter questions' second = .ok other ∧ position.Before other) ∧
      (∀ (questions questions' : List LineQuestion) (first second : Nat),
        first ≤ source.size → second ≤ source.size →
        source.positionAfter questions first = source.positionAfter questions' second →
        first = second) ∧
      (∀ (questions : List LineQuestion) (offset : Int), source.size < offset →
        source.positionAfter questions offset = .error (.noSuchOffset offset) ∧
          (Fault.noSuchOffset offset).kind = "IndexError") ∧
      ∀ (questions : List LineQuestion) (offset : Int), offset < 0 →
        source.positionAfter questions offset = .ok .null ∧ Position.null.isNull = true := by
  simp only [positionAfter_eq]
  refine ⟨fun _ offset hoffset => ?_, fun _ _ first second => before_of_lt,
    fun _ _ first second hfirst hsecond heq => ?_, fun _ offset h => ⟨position_eq_error h, rfl⟩,
    fun _ offset h => ⟨position_eq_null h, rfl⟩⟩
  · obtain ⟨before, line, after, h⟩ := exists_lineOf hoffset
    exact ⟨_, _, h.position_eq, h.placedAt⟩
  · rcases Nat.lt_trichotomy first second with hlt | rfl | hlt
    · exact absurd heq (position_ne_of_lt hlt hsecond)
    · rfl
    · exact absurd heq.symm (position_ne_of_lt hlt hfirst)

-- The end of a text is on the last line, although that line ends with a newline; the line before it
-- is empty.
theorem positions_are_faithful_behind_the_last_newline :
    let source : Source := .of "" "a\n\nbc\n"
    ∃ line column : Nat, source.positionAfter [.line 2] 6 = .ok ⟨line, column⟩ ∧
      source.PlacedAt 6 line column ∧ source.positionAfter [] 6 = .ok ⟨3, 4⟩ ∧
      ∃ position other, source.positionAfter [] 2 = .ok position ∧
        source.positionAfter [.line 6] 6 = .ok other ∧ position.Before other := by
  obtain ⟨hplaced, hbefore, -⟩ := positions_are_faithful (.of "" "a\n\nbc\n")
  obtain ⟨line, column, hposition, hat⟩ := hplaced [.line 2] 6 (by decide)
  exact ⟨line, column, hposition, hat, rfl, hbefore [] [.line 6] 2 6 (by decide) (by decide)⟩

end Source

end Abacus
