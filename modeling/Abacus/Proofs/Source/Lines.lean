import Abacus.Proofs.Faulting
import Abacus.Source.Excerpt
import Mathlib.Tactic.Common

namespace Abacus

theorem newlineOffsets_append (offset : Nat) (front back : List Char) :
    newlineOffsets offset (front ++ back) =
      newlineOffsets offset front ++ newlineOffsets (offset + front.length) back := by
  induction front generalizing offset with
  | nil => rfl
  | cons c front ih =>
    have hlength : offset + (c :: front).length = offset + 1 + front.length := by
      rw [List.length_cons]
      omega
    simp only [List.cons_append, newlineOffsets, ih, hlength]
    split <;> rfl

theorem mem_newlineOffsets {offset newline : Nat} {text : List Char} :
    newline ∈ newlineOffsets offset text ↔
      offset ≤ newline ∧ text[newline - offset]? = some '\n' := by
  induction text generalizing offset with
  | nil => simp [newlineOffsets]
  | cons c text ih =>
    rcases Nat.lt_trichotomy newline offset with hlt | rfl | hlt
    · have hbefore : ¬offset ≤ newline := by omega
      have hbefore' : ¬offset + 1 ≤ newline := by omega
      have hne : newline ≠ offset := by omega
      simp only [newlineOffsets]
      split <;> simp [ih, hbefore, hbefore', hne]
    · have hbefore : ¬newline + 1 ≤ newline := by omega
      simp only [newlineOffsets]
      split <;> simp [*]
    · have hnext : newline - offset = newline - (offset + 1) + 1 := by omega
      have hne : newline ≠ offset := by omega
      have hle : offset ≤ newline ∧ offset + 1 ≤ newline := by omega
      rw [hnext, List.getElem?_cons_succ]
      simp only [newlineOffsets]
      split <;> simp [ih, hne, hle]

theorem pairwise_newlineOffsets (offset : Nat) (text : List Char) :
    (newlineOffsets offset text).Pairwise (· < ·) := by
  induction text generalizing offset with
  | nil => exact .nil
  | cons c text ih =>
    simp only [newlineOffsets]
    split
    · exact .cons (fun newline h => (mem_newlineOffsets.mp h).1) (ih (offset + 1))
    · exact ih (offset + 1)

namespace Source

variable {source : Source} {table : LineTable} {bound newline : Nat}

-- The newlines among the first characters.
def newlinesBefore (source : Source) (bound : Nat) : List Nat :=
  newlineOffsets 0 (source.chars.take bound)

theorem mem_newlinesBefore :
    newline ∈ source.newlinesBefore bound ↔
      newline < bound ∧ source.text[newline]? = some '\n' := by
  have hchar : source.chars[newline]? = source.text[newline]? := Array.getElem?_toList
  rw [newlinesBefore, mem_newlineOffsets, Nat.sub_zero, List.getElem?_take, ← hchar]
  by_cases hlt : newline < bound <;> simp [hlt]

theorem lt_size_of_mem_newlinesBefore (h : newline ∈ source.newlinesBefore bound) :
    newline < source.size :=
  (Array.getElem?_eq_some_iff.mp (mem_newlinesBefore.mp h).2).1

theorem newlinesBefore_add (hbound : bound ≤ source.size) (count : Nat) :
    source.newlinesBefore (bound + count) =
      source.newlinesBefore bound ++
        newlineOffsets bound ((source.chars.drop bound).take count) := by
  have hlength : (source.chars.take bound).length = bound := by
    rw [List.length_take, length_chars]
    omega
  rw [newlinesBefore, List.take_add, newlineOffsets_append, Nat.zero_add, hlength, newlinesBefore]

-- The newlines of a longer front part begin with those of a shorter one, and go on behind it.
theorem exists_newlinesBefore_eq_append {first : Nat} (hfirst : first ≤ source.size)
    (h : first ≤ bound) :
    ∃ further, source.newlinesBefore bound = source.newlinesBefore first ++ further ∧
      ∀ newline ∈ further, first ≤ newline := by
  obtain ⟨count, rfl⟩ := Nat.exists_eq_add_of_le h
  exact ⟨_, newlinesBefore_add hfirst count, fun newline hmem => (mem_newlineOffsets.mp hmem).1⟩

theorem newlinesBefore_of_size_le (h : source.size ≤ bound) :
    source.newlinesBefore bound = newlineOffsets 0 source.chars := by
  rw [newlinesBefore, List.take_of_length_le (by rwa [length_chars])]

theorem countP_newlinesBefore {offset : Nat} (hoffset : offset ≤ source.size)
    (h : offset ≤ bound) :
    (source.newlinesBefore bound).countP (fun (newline : Nat) => (newline : Int) < (offset : Int)) =
      (source.newlinesBefore offset).length := by
  obtain ⟨further, hfurther, hbehind⟩ := exists_newlinesBefore_eq_append hoffset h
  have hfront : (source.newlinesBefore offset).countP
      (fun (newline : Nat) => (newline : Int) < (offset : Int)) =
        (source.newlinesBefore offset).length := by
    apply List.countP_eq_length.mpr
    intro newline hmem
    have := (mem_newlinesBefore.mp hmem).1
    simpa using this
  have hnone : further.countP (fun (newline : Nat) => (newline : Int) < (offset : Int)) = 0 := by
    apply List.countP_eq_zero.mpr
    intro newline hmem
    have := hbehind newline hmem
    simpa using this
  rw [hfurther, List.countP_append, hfront, hnone, Nat.add_zero]

end Source

-- The table holds the newlines of some front part of the text, and nothing else.
def LineTable.Truthful (source : Source) (table : LineTable) : Prop :=
  ∃ bound, table.newlines = source.newlinesBefore bound

namespace LineTable.Truthful

variable {source : Source} {table : LineTable}

theorem empty (source : Source) : LineTable.Truthful source {} := ⟨0, rfl⟩

-- There is no newline between where the search is taken up and where it had come to.
theorem newlines_eq (h : table.Truthful source) :
    table.resume ≤ source.size ∧ table.newlines = source.newlinesBefore table.resume := by
  obtain ⟨bound, hbound⟩ := h
  unfold resume
  cases hlast : table.newlines.getLast? with
  | none =>
    rw [List.getLast?_eq_none_iff.mp hlast]
    exact ⟨Nat.zero_le _, rfl⟩
  | some last =>
    have hmem : last ∈ source.newlinesBefore bound :=
      hbound ▸ List.mem_of_getLast? hlast
    have hsize := Source.lt_size_of_mem_newlinesBefore hmem
    have hlt : last + 1 ≤ bound := (Source.mem_newlinesBefore.mp hmem).1
    obtain ⟨further, hfurther, hbehind⟩ := Source.exists_newlinesBefore_eq_append hsize hlt
    refine ⟨hsize, ?_⟩
    have hnone : further.getLast? = none := by
      rw [hbound, hfurther, List.getLast?_append] at hlast
      cases hlater : further.getLast? with
      | none => rfl
      | some later =>
        rw [hlater] at hlast
        cases hlast
        have := hbehind last (List.mem_of_getLast? hlater)
        omega
    rw [hbound, hfurther, List.getLast?_eq_none_iff.mp hnone, List.append_nil]

-- The search is taken up behind the last newline that was found, and goes on up to the bound.
theorem newlines_extend (h : table.Truthful source) (bound : Int) :
    (source.extend bound table).newlines =
      source.newlinesBefore (max table.resume bound.toNat) := by
  obtain ⟨hresume, hnewlines⟩ := h.newlines_eq
  have hreach : max table.resume bound.toNat = table.resume + (bound - table.resume).toNat := by
    omega
  rw [hreach, Source.newlinesBefore_add hresume, ← hnewlines, Source.extend]

theorem extend (h : table.Truthful source) (bound : Int) :
    (source.extend bound table).Truthful source :=
  ⟨_, h.newlines_extend bound⟩

end LineTable.Truthful

namespace LineM

variable {α β : Type} {source : Source} {offset : Int}

-- All that a question about an offset can do: it has one answer from every truthful table, and it
-- leaves the table or searches the text up to the offset. It does search where it is answered.
def Searches (source : Source) (offset : Int) (x : LineM α) : Prop :=
  ∃ (answer : Except Fault α) (searched : Bool),
    (∀ reply, answer = .ok reply → 0 ≤ offset → searched = true) ∧
    ∀ table : LineTable, table.Truthful source →
      x.run table = (answer, if searched then source.extend offset table else table)

namespace Searches

theorem throw (fault : Fault) : Searches source offset (throw fault : LineM α) :=
  ⟨.error fault, false, fun _ => nofun, fun _ _ => rfl⟩

theorem pure (a : α) (h : offset < 0) : Searches source offset (pure a : LineM α) :=
  ⟨.ok a, false, fun _ _ hoffset => by omega, fun _ _ => rfl⟩

theorem map {x : LineM α} (h : Searches source offset x) (f : α → β) :
    Searches source offset (f <$> x) := by
  obtain ⟨answer, searched, hsearched, hrun⟩ := h
  refine ⟨answer.map f, searched, fun reply hreply hoffset => ?_, fun table htable => ?_⟩
  · cases answer with
    | error fault => cases hreply
    | ok a => exact hsearched a rfl hoffset
  · rw [Faulting.run_map, hrun table htable]

theorem findNewlines (source : Source) (bound : Int) :
    Searches source bound (source.findNewlines bound) := by
  unfold Source.findNewlines
  by_cases hbound : (source.size : Int) < bound
  · rw [if_pos hbound]
    exact ⟨.error .pastEndOfText, true, fun _ _ _ => rfl, fun _ _ => rfl⟩
  · rw [if_neg hbound]
    exact ⟨.ok (), true, fun _ _ _ => rfl, fun _ _ => rfl⟩

-- Newlines behind the offset, which the table may hold from before, do not count.
theorem lineIndex (source : Source) (offset : Int) :
    Searches source offset (source.lineIndex offset) := by
  unfold Source.lineIndex
  by_cases houtside : offset < 0 ∨ (source.size : Int) < offset
  · rw [if_pos houtside]
    exact ⟨.error (.noSuchOffset offset), false, fun _ => nofun, fun _ _ => rfl⟩
  obtain ⟨offset, rfl⟩ : ∃ n : Nat, offset = n := ⟨offset.toNat, by omega⟩
  have hsize : offset ≤ source.size := by omega
  have hsearched : ¬(source.size : Int) < (offset : Int) := by omega
  unfold Source.findNewlines
  rw [if_neg houtside, if_neg hsearched]
  by_cases hend : (offset : Int) = source.size ∧ source.endsWithNewline = true
  · refine ⟨.ok ((newlineOffsets 0 source.chars).length - 1), true, fun _ _ _ => rfl,
      fun table htable => ?_⟩
    have hall : (source.extend offset table).newlines = newlineOffsets 0 source.chars := by
      rw [htable.newlines_extend, Source.newlinesBefore_of_size_le (by omega)]
    simp only [if_pos hend, ← hall]
    rfl
  · refine ⟨.ok (source.newlinesBefore offset).length, true, fun _ _ _ => rfl,
      fun table htable => ?_⟩
    have hcount := Source.countP_newlinesBefore hsize (Nat.le_max_right table.resume offset)
    rw [← Int.toNat_natCast offset, ← htable.newlines_extend, Int.toNat_natCast] at hcount
    simp only [if_neg hend, ← hcount]
    rfl

theorem findPosition (source : Source) (offset : Int) :
    Searches source offset (source.findPosition offset) := by
  unfold Source.findPosition
  by_cases hoffset : offset < 0
  · rw [if_pos hoffset]
    exact pure _ hoffset
  · rw [if_neg hoffset, bind_pure_comp]
    exact (lineIndex source offset).map _

theorem findExcerpt (source : Source) (first last : Int) (label message : String) :
    Searches source first (source.findExcerpt first last label message) := by
  unfold Source.findExcerpt
  by_cases hrange : first < 0 ∨ last < first
  · rw [if_pos hrange]
    exact throw _
  · rw [if_neg hrange]
    simp only [bind_pure_comp]
    exact (lineIndex source first).map _

end Searches

end LineM

-- What may be asked about the lines of a text.
inductive LineQuestion
  | newlines (bound : Int)
  | line (offset : Int)
  | position (offset : Int)
  | excerpt (first last : Int) (label message : String)

inductive LineAnswer
  | searched
  | line (index : Nat)
  | position (position : Position)
  | excerpt (excerpt : Excerpt)

namespace LineQuestion

-- How far into the text the question is about.
def offset : LineQuestion → Int
  | newlines bound => bound
  | line offset => offset
  | position offset => offset
  | excerpt first .. => first

def ask (source : Source) : LineQuestion → LineM LineAnswer
  | newlines bound => (fun _ => .searched) <$> source.findNewlines bound
  | line offset => .line <$> source.lineIndex offset
  | position offset => .position <$> source.findPosition offset
  | excerpt first last label message =>
      .excerpt <$> source.findExcerpt first last label message

theorem searches_ask (source : Source) (question : LineQuestion) :
    LineM.Searches source question.offset (question.ask source) := by
  cases question with
  | newlines bound => exact (LineM.Searches.findNewlines source bound).map _
  | line offset => exact (LineM.Searches.lineIndex source offset).map _
  | position offset => exact (LineM.Searches.findPosition source offset).map _
  | excerpt first last label message =>
    exact (LineM.Searches.findExcerpt source first last label message).map _

end LineQuestion

namespace LineTable.Truthful

variable {source : Source} {table : LineTable}

-- Whatever is asked, answered or not.
theorem ask (h : table.Truthful source) (question : LineQuestion) :
    (((question.ask source).run table).2).Truthful source := by
  obtain ⟨answer, searched, -, hrun⟩ := question.searches_ask source
  rw [hrun table h]
  cases searched with
  | false => exact h
  | true => exact h.extend question.offset

theorem prefix_ask (h : table.Truthful source) (question : LineQuestion) :
    table.newlines <+: ((question.ask source).run table).2.newlines := by
  obtain ⟨answer, searched, -, hrun⟩ := question.searches_ask source
  rw [hrun table h]
  cases searched with
  | false => exact List.prefix_rfl
  | true => exact List.prefix_append _ _

theorem answer_eq (h : table.Truthful source) (question : LineQuestion) :
    ((question.ask source).run table).1 = ((question.ask source).run {}).1 := by
  obtain ⟨answer, searched, -, hrun⟩ := question.searches_ask source
  rw [hrun table h, hrun {} (.empty source)]

-- An answered question has found all newlines in front of its offset.
theorem mem_of_answered (h : table.Truthful source) {question : LineQuestion} {reply : LineAnswer}
    (hreply : ((question.ask source).run table).1 = .ok reply) {newline : Nat}
    (hnewline : source.text[newline]? = some '\n') (hlt : (newline : Int) < question.offset) :
    newline ∈ ((question.ask source).run table).2.newlines := by
  obtain ⟨answer, searched, hsearched, hrun⟩ := question.searches_ask source
  rw [hrun table h] at hreply ⊢
  have hsearched := hsearched reply hreply (by omega)
  simp only [hsearched, if_true, h.newlines_extend, Source.mem_newlinesBefore]
  exact ⟨by omega, hnewline⟩

end LineTable.Truthful

namespace Source

variable {source : Source} {table : LineTable}

-- The table that is left when questions are asked one after the other.
def askAll (source : Source) (questions : List LineQuestion) (table : LineTable) : LineTable :=
  questions.foldl (fun table question => ((question.ask source).run table).2) table

theorem askAll_append (earlier later : List LineQuestion) (table : LineTable) :
    source.askAll (earlier ++ later) table = source.askAll later (source.askAll earlier table) :=
  List.foldl_append

theorem truthful_askAll (h : table.Truthful source) (questions : List LineQuestion) :
    (source.askAll questions table).Truthful source := by
  induction questions generalizing table with
  | nil => exact h
  | cons question questions ih => exact ih (h.ask question)

theorem prefix_askAll (h : table.Truthful source) (questions : List LineQuestion) :
    table.newlines <+: (source.askAll questions table).newlines := by
  induction questions generalizing table with
  | nil => exact List.prefix_rfl
  | cons question questions ih => exact (h.prefix_ask question).trans (ih (h.ask question))

-- The table of a text that was not asked about before.
def tableAfter (source : Source) (questions : List LineQuestion) : LineTable :=
  source.askAll questions {}

theorem truthful_tableAfter (source : Source) (questions : List LineQuestion) :
    (source.tableAfter questions).Truthful source :=
  truthful_askAll (.empty source) questions

theorem prefix_tableAfter (source : Source) (earlier later : List LineQuestion) :
    (source.tableAfter earlier).newlines <+: (source.tableAfter (earlier ++ later)).newlines := by
  rw [tableAfter, tableAfter, askAll_append]
  exact prefix_askAll (truthful_tableAfter source earlier) later

-- Whatever was asked before, the table is the increasing list of the newlines in some front part of
-- the text, it only ever grows at its end, it has all the newlines in front of an offset for which
-- there was an answer, and the next answer is the one that an empty table gives.
theorem newline_table_is_a_cache (source : Source) (questions : List LineQuestion) :
    (∃ bound, (source.tableAfter questions).newlines.Pairwise (· < ·) ∧
      ∀ offset : Nat, offset ∈ (source.tableAfter questions).newlines ↔
        offset < bound ∧ source.text[offset]? = some '\n') ∧
      (∀ later, (source.tableAfter questions).newlines <+:
        (source.tableAfter (questions ++ later)).newlines) ∧
      (∀ (question : LineQuestion) (reply : LineAnswer) (later : List LineQuestion) (newline : Nat),
        ((question.ask source).run (source.tableAfter questions)).1 = .ok reply →
        source.text[newline]? = some '\n' → (newline : Int) < question.offset →
        newline ∈ (source.tableAfter (questions ++ question :: later)).newlines) ∧
      ∀ question : LineQuestion, ((question.ask source).run (source.tableAfter questions)).1 =
        ((question.ask source).run {}).1 := by
  have htruthful := truthful_tableAfter source questions
  refine ⟨?_, prefix_tableAfter source questions, ?_, htruthful.answer_eq⟩
  · obtain ⟨bound, hbound⟩ := htruthful
    rw [hbound]
    exact ⟨bound, pairwise_newlineOffsets 0 _, fun _ => mem_newlinesBefore⟩
  · intro question reply later newline hreply hnewline hlt
    have hfound := htruthful.mem_of_answered hreply hnewline hlt
    have hgrows := prefix_tableAfter source (questions ++ [question]) later
    rw [tableAfter, askAll_append, List.append_assoc] at hgrows
    exact hgrows.subset hfound

-- A search past the end is refused once it has found all newlines.
theorem newline_table_is_a_cache_behind_a_refusal :
    let source : Source := .of "" "a\nb\n"
    let questions := [LineQuestion.newlines 9, .position (-1)]
    1 ∈ (source.tableAfter (questions ++ [.line 3])).newlines ∧
      (((LineQuestion.line 3).ask source).run (source.tableAfter questions)).1 = .ok (.line 1) := by
  obtain ⟨-, -, hfound, hanswer⟩ := newline_table_is_a_cache (.of "" "a\nb\n")
    [LineQuestion.newlines 9, .position (-1)]
  have hline := hanswer (.line 3)
  exact ⟨hfound (.line 3) (.line 1) [] 1 (hline.trans rfl) rfl (by decide), hline.trans rfl⟩

end Source

end Abacus
