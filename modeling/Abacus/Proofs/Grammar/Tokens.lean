import Abacus.Grammar.Basic
import Abacus.Proofs.Parsing.Words
import Mathlib.Data.List.TakeWhile

namespace Abacus.Grammar

open Abacus.Pattern Abacus.Parser

variable {rules : RuleName → Parser} {view : View}

def isSpace (c : Char) : Bool := " \t\r\n".toList.contains c

def Spaces (text : List Char) : Prop := ∀ c ∈ text, isSpace c = true

instance (text : List Char) : Decidable (Spaces text) :=
  decidable_of_iff (text.all isSpace = true) List.all_eq_true

-- The text behind the spaces at its beginning.
def skipSpaces (text : List Char) : List Char := text.dropWhile isSpace

theorem isSpace_iff {c : Char} : isSpace c = true ↔ c = ' ' ∨ c = '\t' ∨ c = '\r' ∨ c = '\n' := by
  simp [isSpace]

theorem not_isSpace_bracket {bracket : Char × Char} (h : bracket ∈ brackets) :
    isSpace bracket.1 = false ∧ isSpace bracket.2 = false := by
  have hall : ∀ b ∈ brackets, isSpace b.1 = false ∧ isSpace b.2 = false := by decide
  exact hall bracket h

theorem spaces_nil : Spaces [] := fun _ h => by cases h

theorem spaces_append {front back : List Char} :
    Spaces (front ++ back) ↔ Spaces front ∧ Spaces back := List.forall_mem_append

theorem spaces_takeWhile (text : List Char) : Spaces (text.takeWhile isSpace) :=
  fun _ h => List.mem_takeWhile_imp h

theorem not_isSpace_skipSpaces (text : List Char) :
    ∀ c ∈ (skipSpaces text).head?, isSpace c = false := by
  intro c h
  have := List.head?_dropWhile_not isSpace text
  rw [skipSpaces] at h
  rw [h] at this
  simpa using this

theorem skipSpaces_append {gap : List Char} (hgap : Spaces gap) (rest : List Char) :
    skipSpaces (gap ++ rest) = skipSpaces rest := List.dropWhile_append_of_pos hgap

theorem skipSpaces_eq_self {text : List Char} (h : ∀ c ∈ text.head?, isSpace c = false) :
    skipSpaces text = text := by
  cases text with
  | nil => rfl
  | cons c rest => simp [skipSpaces, h c rfl]

-- Behind two runs of spaces in one text the same is left.
theorem spaces_cancel {gap gap' rest rest' : List Char} (hgap : Spaces gap) (hgap' : Spaces gap')
    (hrest : ∀ c ∈ rest.head?, isSpace c = false) (hrest' : ∀ c ∈ rest'.head?, isSpace c = false)
    (h : gap ++ rest = gap' ++ rest') : rest = rest' := by
  have hskip := congrArg skipSpaces h
  rwa [skipSpaces_append hgap, skipSpaces_append hgap', skipSpaces_eq_self hrest,
    skipSpaces_eq_self hrest'] at hskip

theorem exists_eq_append_skipSpaces (text : List Char) :
    ∃ gap, Spaces gap ∧ text = gap ++ skipSpaces text :=
  ⟨_, spaces_takeWhile text, (List.takeWhile_append_dropWhile).symm⟩

-- Some of the spaces in front of a character are taken away: the others are left.
theorem exists_gap_of_append_eq {gap taken rest back : List Char} {c : Char} (hgap : Spaces gap)
    (htaken : Spaces taken) (hc : isSpace c = false) (h : gap ++ c :: back = taken ++ rest) :
    ∃ left, Spaces left ∧ gap = taken ++ left ∧ rest = left ++ c :: back := by
  obtain ⟨left, hleft, hrest⟩ := exists_eq_append_skipSpaces rest
  have hskip : skipSpaces rest = c :: back := by
    rw [← skipSpaces_append htaken, ← h, skipSpaces_append hgap]
    exact skipSpaces_eq_self (by rintro _ ⟨⟩; exact hc)
  rw [hskip] at hrest
  refine ⟨left, hleft, ?_, hrest⟩
  rw [hrest, ← List.append_assoc] at h
  exact List.append_cancel_right h

theorem flatten_map_singleton (text : List Char) : (text.map fun c => [c]).flatten = text := by
  rw [← List.flatMap_def, List.flatMap_singleton']

-- A run of characters of one kind, each of them taken by itself.
theorem many1_satisfy_takes {suits : Char → Bool} {expected : String} {text rest : List Char}
    (hne : text ≠ []) (hsuits : ∀ c ∈ text, suits c = true) (hchars : view.chars = text ++ rest)
    (hstop : ∀ c ∈ rest.head?, suits c = false) :
    (Parser.many1 (Parser.satisfy suits expected) .joining).Takes view text.length
      (.str (String.ofList text)) := by
  have h := many1_takes_pieces (p := Parser.satisfy suits expected)
    (text.map fun c => [c]) (by simpa using hne) (by simp)
    (by rw [flatten_map_singleton]; exact hchars) ?_ ?_
  · rwa [flatten_map_singleton] at h
  · intro piece hpiece v after hv
    obtain ⟨c, hc, rfl⟩ := List.mem_map.mp hpiece
    exact satisfy_takes hv (hsuits c hc)
  · intro v hv
    exact satisfy_fails (hv ▸ hstop)

theorem blanks_takes {gap rest : List Char} (hgap : Spaces gap) (hchars : view.chars = gap ++ rest)
    (hrest : ∀ c ∈ rest.head?, isSpace c = false) :
    Takes (blanks.parser rules) view gap.length (.str (String.ofList gap)) := by
  cases gap with
  | nil =>
    refine optionally_takes_none (many1_fails (satisfy_fails ?_))
    rw [hchars]
    exact hrest
  | cons c gap =>
    exact optionally_takes (many1_satisfy_takes (by simp) hgap hchars hrest)

-- The spaces at the beginning of a view are taken, all of them.
theorem blanks_takes_takeWhile (rules : RuleName → Parser) (view : View) :
    Takes (blanks.parser rules) view (view.chars.takeWhile isSpace).length
      (.str (String.ofList (view.chars.takeWhile isSpace))) :=
  blanks_takes (spaces_takeWhile _) List.takeWhile_append_dropWhile.symm
    (not_isSpace_skipSpaces view.chars)

theorem blanks_takes_skipSpaces (rules : RuleName → Parser) (view : View) :
    ∃ gap, Spaces gap ∧ view.chars = gap ++ skipSpaces view.chars ∧
      (view.drop gap.length).chars = skipSpaces view.chars ∧
      Takes (blanks.parser rules) view gap.length (.str (String.ofList gap)) :=
  ⟨_, spaces_takeWhile _, List.takeWhile_append_dropWhile.symm,
    View.chars_drop_length List.takeWhile_append_dropWhile.symm, blanks_takes_takeWhile rules view⟩

-- Behind the spaces that are asked for, those that follow are taken too.
theorem blanks_takes_more (rules : RuleName → Parser) {gap after : List Char} (hgap : Spaces gap)
    (hchars : view.chars = gap ++ after) :
    ∃ gap' after' value, after = gap' ++ after' ∧ Spaces gap' ∧
      Takes (blanks.parser rules) view (gap.length + gap'.length) value := by
  obtain ⟨gap', hgap', hafter⟩ := exists_eq_append_skipSpaces after
  refine ⟨gap', skipSpaces after, .str (String.ofList (gap ++ gap')), hafter, hgap', ?_⟩
  have hchars' : view.chars = (gap ++ gap') ++ skipSpaces after := by
    rw [List.append_assoc, ← hafter, hchars]
  rw [← List.length_append]
  exact blanks_takes (spaces_append.mpr ⟨hgap, hgap'⟩) hchars' (not_isSpace_skipSpaces after)

theorem length_le_size {text rest : List Char} (hchars : view.chars = text ++ rest) :
    text.length ≤ view.size := by
  rw [← View.length_chars, hchars, List.length_append]
  omega

theorem blanks_reads (view : View) :
    Reads (blanks.parser rules) view fun text value =>
      Spaces text ∧ value = .str (String.ofList text) := by
  obtain ⟨gap, hgap, hchars, -, htakes⟩ := blanks_takes_skipSpaces rules view
  refine .inr ⟨gap.length, _, length_le_size hchars, htakes, ?_⟩
  rw [hchars, List.take_left]
  exact ⟨hgap, rfl⟩

-- A spelling stands at the beginning of the text, and none that is longer.
def StandsAt (spelling : String) (text : List Char) : Prop :=
  spelling.toList <+: text ∧ ∀ longer ∈ longerSpellings spelling, ¬longer.toList <+: text

theorem mem_longerSpellings {spelling longer : String} :
    longer ∈ longerSpellings spelling ↔ longer ∈ allSpellings ∧
      spelling.toList.length < longer.toList.length ∧ spelling.toList <+: longer.toList := by
  simp [longerSpellings]

-- Of two spellings at one place the shorter one would be extended by the other.
theorem StandsAt.unique {spelling other : String} {text : List Char} (h : StandsAt spelling text)
    (h' : StandsAt other text) (hmem : spelling ∈ allSpellings) (hmem' : other ∈ allSpellings) :
    spelling = other := by
  rcases Nat.lt_trichotomy spelling.toList.length other.toList.length with hlt | heq | hlt
  · have hbegins := List.prefix_of_prefix_length_le h.1 h'.1 (Nat.le_of_lt hlt)
    exact absurd h'.1 (h.2 other (mem_longerSpellings.mpr ⟨hmem', hlt, hbegins⟩))
  · have hbegins := List.prefix_of_prefix_length_le h.1 h'.1 (Nat.le_of_eq heq)
    exact String.toList_injective (hbegins.eq_of_length heq)
  · have hbegins := List.prefix_of_prefix_length_le h'.1 h.1 (Nat.le_of_lt hlt)
    exact absurd h.1 (h'.2 spelling (mem_longerSpellings.mpr ⟨hmem, hlt, hbegins⟩))

theorem mem_allSpellings {operator : Operator} {spelling : String}
    (h : spelling ∈ operator.spellings) : spelling ∈ allSpellings :=
  List.mem_flatMap.mpr ⟨operator, operator.mem_all, h⟩

theorem operator_unique {operator other : Operator} {spelling : String}
    (h : spelling ∈ operator.spellings) (h' : spelling ∈ other.spellings) : operator = other := by
  have hall : ∀ o ∈ Operator.all, ∀ o' ∈ Operator.all, ∀ s ∈ o.spellings, s ∈ o'.spellings →
      o = o' := by decide
  exact hall operator operator.mem_all other other.mem_all spelling h h'

-- What holds of the first character of every spelling.
theorem exists_head_of_spelling {holds : Char → Bool}
    (hall : (allSpellings.all fun s => s.toList.head?.any holds) = true) {spelling : String}
    (h : spelling ∈ allSpellings) : ∃ c rest, spelling.toList = c :: rest ∧ holds c = true := by
  obtain ⟨c, hc, hholds⟩ := (Option.any_eq_true _ _).mp (List.all_eq_true.mp hall spelling h)
  obtain ⟨rest, hrest⟩ := List.head?_eq_some_iff.mp hc
  exact ⟨c, rest, hrest, hholds⟩

theorem length_spelling_pos {operator : Operator} {spelling : String}
    (h : spelling ∈ operator.spellings) : 0 < spelling.toList.length := by
  have hall : ∀ s ∈ allSpellings, 0 < s.toList.length := by decide
  exact hall spelling (mem_allSpellings h)

theorem skipSpaces_spelling {operator : Operator} {spelling : String}
    (h : spelling ∈ operator.spellings) (rest : List Char) :
    skipSpaces (spelling.toList ++ rest) = spelling.toList ++ rest := by
  have hall : (allSpellings.all fun s => s.toList.head?.any fun c => !isSpace c) = true := by decide
  obtain ⟨c, rest', heq, hc⟩ := exists_head_of_spelling hall (mem_allSpellings h)
  rw [heq]
  exact skipSpaces_eq_self (by rintro _ ⟨⟩; simpa using hc)

-- Of a list of patterns, the first one that takes something is the one that counts.
theorem firstOf_parser_takes {before after : List Pattern} {p : Pattern} {count : Nat}
    {value : Value} (hbefore : ∀ q ∈ before, Fails (q.parser rules) view)
    (hp : Takes (p.parser rules) view count value) :
    Takes ((firstOf (before ++ p :: after)).parser rules) view count value := by
  rw [parser_firstOf, List.map_append, List.map_cons]
  refine Parser.firstOf_takes _ _ (fun r hr => ?_) hp
  obtain ⟨q, hq, rfl⟩ := List.mem_map.mp hr
  exact hbefore q hq

theorem firstOf_parser_fails {ps : List Pattern} (h : ∀ p ∈ ps, Fails (p.parser rules) view) :
    Fails ((firstOf ps).parser rules) view := by
  rw [parser_firstOf]
  apply Parser.firstOf_fails
  intro r hr
  obtain ⟨p, hp, rfl⟩ := List.mem_map.mp hr
  exact h p hp

theorem firstOf_parser_reads {ps : List Pattern} {described : List Char → Value → Prop}
    (h : ∀ p ∈ ps, Reads (p.parser rules) view described) :
    Reads ((firstOf ps).parser rules) view described := by
  rw [parser_firstOf]
  apply firstOf_reads
  intro r hr
  obtain ⟨p, hp, rfl⟩ := List.mem_map.mp hr
  exact h p hp

theorem firstOf_word_fails {words : List String}
    (h : ∀ w ∈ words, ¬w.toList <+: view.chars) :
    Fails ((firstOf (words.map word)).parser rules) view := by
  apply firstOf_parser_fails
  intro p hp
  obtain ⟨w, hw, rfl⟩ := List.mem_map.mp hp
  exact word_fails (h w hw)

theorem firstOf_word_takes {words : List String} {text : String} (hmem : text ∈ words)
    (h : text.toList <+: view.chars) :
    ∃ count value, Takes ((firstOf (words.map word)).parser rules) view count value := by
  rw [parser_firstOf]
  induction words with
  | nil => cases hmem
  | cons w words ih =>
    by_cases hw : w.toList <+: view.chars
    · exact ⟨_, _, Parser.firstOf_takes [] _ (by simp) (word_takes hw)⟩
    · have hmem' : text ∈ words := by
        rcases List.mem_cons.mp hmem with rfl | hmem'
        · exact absurd h hw
        · exact hmem'
      obtain ⟨count, value, htakes⟩ := ih hmem'
      refine ⟨count, value, ?_⟩
      cases words with
      | nil => cases hmem'
      | cons w' words => exact alt_takes_right (word_fails hw) htakes

theorem spelledOperator_takes {spelling : String} (h : StandsAt spelling view.chars) :
    Takes ((spelledOperator spelling).parser rules) view spelling.toList.length
      (.str spelling) := by
  unfold spelledOperator
  split
  · exact word_takes h.1
  · have hnone : Takes ((notAhead (firstOf ((longerSpellings spelling).map word))).parser rules)
        view 0 (.str "") := notAhead_takes (firstOf_word_fails h.2)
    have hword : Takes ((word spelling).parser rules) (view.drop 0) _ _ :=
      word_takes (by rw [View.drop_zero]; exact h.1)
    have htakes := seq_second_takes hnone hword
    rwa [Nat.zero_add] at htakes

theorem spelledOperator_fails {spelling : String} (h : ¬StandsAt spelling view.chars) :
    Fails ((spelledOperator spelling).parser rules) view := by
  unfold spelledOperator
  split
  · next hnone =>
    refine word_fails fun hbegins => h ⟨hbegins, ?_⟩
    simp [hnone]
  · by_cases hlonger : ∃ longer ∈ longerSpellings spelling, longer.toList <+: view.chars
    · obtain ⟨longer, hmem, hlonger⟩ := hlonger
      obtain ⟨_, _, htakes⟩ := firstOf_word_takes hmem hlonger
      exact seq_fails_left (notAhead_fails htakes)
    · have hnone : ∀ longer ∈ longerSpellings spelling, ¬longer.toList <+: view.chars :=
        fun longer hmem hbegins => hlonger ⟨longer, hmem, hbegins⟩
      apply seq_fails_right (notAhead_takes (firstOf_word_fails hnone))
      rw [View.drop_zero]
      exact word_fails fun hbegins => h ⟨hbegins, hnone⟩

-- The spelling that stands behind the spaces, and the spaces on both sides of it.
theorem operatorPattern_takes {operator : Operator} {spelling : String} {gap gap' rest : List Char}
    (hmem : spelling ∈ operator.spellings) (hgap : Spaces gap) (hgap' : Spaces gap')
    (hrest : ∀ c ∈ rest.head?, isSpace c = false)
    (hchars : view.chars = gap ++ (spelling.toList ++ (gap' ++ rest)))
    (hstands : StandsAt spelling (spelling.toList ++ (gap' ++ rest))) :
    Takes ((operatorPattern operator).parser rules) view
      (gap.length + (spelling.toList.length + gap'.length)) (.str spelling) := by
  have hhead : ∀ c ∈ (spelling.toList ++ (gap' ++ rest)).head?, isSpace c = false := by
    rw [← skipSpaces_spelling hmem]
    exact not_isSpace_skipSpaces _
  have hback : (view.drop gap.length).chars = spelling.toList ++ (gap' ++ rest) :=
    View.chars_drop_length hchars
  have hlast : ((view.drop gap.length).drop spelling.toList.length).chars = gap' ++ rest :=
    View.chars_drop_length hback
  have hspelled : Takes ((firstOf (operator.spellings.map spelledOperator)).parser rules)
      (view.drop gap.length) spelling.toList.length (.str spelling) := by
    obtain ⟨before, after, heq, hnot⟩ := List.eq_append_cons_of_mem hmem
    rw [heq, List.map_append, List.map_cons]
    refine firstOf_parser_takes (fun p hp => ?_) (spelledOperator_takes (hback ▸ hstands))
    obtain ⟨other, hother, rfl⟩ := List.mem_map.mp hp
    apply spelledOperator_fails
    intro hstands'
    have hmem' : other ∈ operator.spellings := heq ▸ List.mem_append_left _ hother
    exact hnot (hstands.unique (hback ▸ hstands') (mem_allSpellings hmem)
      (mem_allSpellings hmem') ▸ hother)
  exact seq_second_takes (blanks_takes hgap hchars hhead)
    (seq_first_takes hspelled (blanks_takes hgap' hlast hrest))

theorem operatorPattern_fails {operator : Operator}
    (h : ∀ spelling ∈ operator.spellings, ¬StandsAt spelling (skipSpaces view.chars)) :
    Fails ((operatorPattern operator).parser rules) view := by
  obtain ⟨gap, hgap, hchars, hback, htakes⟩ := blanks_takes_skipSpaces rules view
  refine seq_fails_right htakes (seq_fails_left ?_)
  apply firstOf_parser_fails
  intro p hp
  obtain ⟨spelling, hmem, rfl⟩ := List.mem_map.mp hp
  exact spelledOperator_fails (hback ▸ h spelling hmem)

-- The text behind a spelling, which stands behind the spaces.
def behindSpelling (text : List Char) (spelling : String) : List Char :=
  (skipSpaces text).drop spelling.toList.length

theorem spaced_spelling_eq {text : List Char} {spelling : String}
    (hstarts : spelling.toList <+: skipSpaces text) :
    text.takeWhile isSpace ++ (spelling.toList ++
      ((behindSpelling text spelling).takeWhile isSpace ++
        skipSpaces (behindSpelling text spelling))) = text := by
  obtain ⟨back, hback⟩ := hstarts
  have hbehind : behindSpelling text spelling = back := by
    rw [behindSpelling, ← hback, List.drop_left]
  rw [hbehind, skipSpaces, List.takeWhile_append_dropWhile, hback]
  exact List.takeWhile_append_dropWhile

-- The spaces on both sides are taken, all of them.
theorem operatorPattern_takes_standing {operator : Operator} {spelling : String}
    (hmem : spelling ∈ operator.spellings) (hstands : StandsAt spelling (skipSpaces view.chars)) :
    Takes ((operatorPattern operator).parser rules) view
      ((view.chars.takeWhile isSpace).length + (spelling.toList.length +
        ((behindSpelling view.chars spelling).takeWhile isSpace).length)) (.str spelling) := by
  have hchars := (spaced_spelling_eq hstands.1).symm
  refine operatorPattern_takes hmem (spaces_takeWhile _) (spaces_takeWhile _)
    (not_isSpace_skipSpaces _) hchars ?_
  have hskip := skipSpaces_append (spaces_takeWhile view.chars)
    (spelling.toList ++ ((behindSpelling view.chars spelling).takeWhile isSpace ++
      skipSpaces (behindSpelling view.chars spelling)))
  rw [← hchars, skipSpaces_spelling hmem] at hskip
  rwa [← hskip]

-- An operator is read as one of its spellings between spaces.
theorem operatorPattern_reads (operator : Operator) (view : View) :
    Reads ((operatorPattern operator).parser rules) view fun text value =>
      ∃ gap spelling gap', text = gap ++ (spelling.toList ++ gap') ∧ Spaces gap ∧ Spaces gap' ∧
        spelling ∈ operator.spellings ∧ StandsAt spelling (skipSpaces view.chars) ∧
        value = .str spelling := by
  by_cases h : ∃ spelling ∈ operator.spellings, StandsAt spelling (skipSpaces view.chars)
  · obtain ⟨spelling, hmem, hstands⟩ := h
    have hchars : (view.chars.takeWhile isSpace ++ (spelling.toList ++
        (behindSpelling view.chars spelling).takeWhile isSpace)) ++
        skipSpaces (behindSpelling view.chars spelling) = view.chars := by
      rw [List.append_assoc, List.append_assoc]
      exact spaced_spelling_eq hstands.1
    have htakes : Takes ((operatorPattern operator).parser rules) view _ _ :=
      operatorPattern_takes_standing hmem hstands
    rw [← List.length_append, ← List.length_append] at htakes
    have htaken := (List.prefix_iff_eq_take.mp ⟨_, hchars⟩).symm
    exact .inr ⟨_, _, length_le_size hchars.symm, htakes, _, spelling, _, htaken,
      spaces_takeWhile _, spaces_takeWhile _, hmem, hstands, rfl⟩
  · exact .inl (operatorPattern_fails fun spelling hmem hstands => h ⟨spelling, hmem, hstands⟩)

end Abacus.Grammar
