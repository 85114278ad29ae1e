import Abacus.Proofs.Grammar.Flat

namespace Abacus.Grammar

variable {names : List String} {grouping : Bool} {phrase : Phrase} {text after after' : List Char}
  {first tree : Value} {rest : List (Operator × Value)}

-- What no operand and no operator begins with.
def isStop (grouping : Bool) (c : Char) : Bool := brackets.any (·.2 = c) || !grouping && c = ','

-- Behind the spaces the text is over, as far as an expression is concerned.
def Ends (grouping : Bool) (text : List Char) : Prop :=
  ∀ c ∈ (skipSpaces text).head?, isStop grouping c = true

-- An operator stands behind the spaces.
def Joins (text : List Char) : Prop :=
  ∃ spelling ∈ allSpellings, StandsAt spelling (skipSpaces text)

-- What may follow an operand.
def Follows (grouping : Bool) (text : List Char) : Prop := Ends grouping text ∨ Joins text

-- What follows the arguments of a call.
def Closes (text : List Char) : Prop :=
  ∃ bracket ∈ brackets, (skipSpaces text).head? = some bracket.2

theorem Closes.ends (h : Closes text) (grouping : Bool) : Ends grouping text := by
  obtain ⟨bracket, hbracket, hhead⟩ := h
  intro c hc
  rw [hhead] at hc
  cases hc
  have hclose : brackets.any (·.2 = bracket.2) = true :=
    List.any_eq_true.mpr ⟨bracket, hbracket, by simp⟩
  simp [isStop, hclose]

theorem skipSpaces_close {bracket : Char × Char} (hbracket : bracket ∈ brackets)
    {gap : List Char} (hgap : Spaces gap) (rest : List Char) :
    skipSpaces (gap ++ bracket.2 :: rest) = bracket.2 :: rest := by
  rw [skipSpaces_append hgap]
  exact skipSpaces_eq_self (by rintro _ ⟨⟩; exact (not_isSpace_bracket hbracket).2)

theorem closes_close {bracket : Char × Char} (hbracket : bracket ∈ brackets) {gap : List Char}
    (hgap : Spaces gap) (rest : List Char) : Closes (gap ++ bracket.2 :: rest) := by
  refine ⟨bracket, hbracket, ?_⟩
  rw [skipSpaces_close hbracket hgap]
  rfl

theorem ends_nil {gap : List Char} (hgap : Spaces gap) (grouping : Bool) : Ends grouping gap := by
  have hskip := skipSpaces_append hgap []
  rw [List.append_nil] at hskip
  intro c hc
  rw [hskip] at hc
  cases hc

theorem Ends.not_joins (h : Ends grouping text) : ¬Joins text := by
  rintro ⟨spelling, hmem, ⟨back, hback⟩, -⟩
  have hall : ∀ g, (allSpellings.all fun s => s.toList.head?.any fun c => !isStop g c) = true := by
    decide
  obtain ⟨c, rest, heq, hc⟩ := exists_head_of_spelling (hall grouping) hmem
  have hstop := h c (by rw [← hback, heq]; rfl)
  simp [hstop] at hc

theorem endsLiteral_of_not_isLiteralChar {c : Char} (h : isLiteralChar c = false) :
    c.isDigit = false ∧ c ≠ '.' ∧ (grouping = true → c ≠ ',') := by
  simp only [isLiteralChar, Bool.or_eq_false_iff, decide_eq_false_iff_not] at h
  exact ⟨h.1.1, h.2, fun _ => h.1.2⟩

-- A literal is over where anything follows that may follow an operand.
theorem Follows.endsLiteral (h : Follows grouping text) : EndsLiteral grouping text := by
  intro c hc
  by_cases hspace : isSpace c = true
  · exact endsLiteral_of_not_isLiteralChar (not_isLiteralChar_of_isSpace hspace)
  · have hskip : skipSpaces text = text := by
      apply skipSpaces_eq_self
      intro c' hc'
      rw [Option.mem_unique hc' hc]
      exact Bool.eq_false_iff.mpr hspace
    rcases h with h | ⟨spelling, hmem, ⟨back, hback⟩, -⟩
    · have hstop := h c (by rwa [hskip])
      simp only [isStop, Bool.or_eq_true, List.any_eq_true, decide_eq_true_eq, Bool.and_eq_true,
        Bool.not_eq_true'] at hstop
      rcases hstop with ⟨bracket, hbracket, rfl⟩ | ⟨hgrouping, rfl⟩
      · exact endsLiteral_of_not_isLiteralChar (not_isLiteralChar_bracket hbracket).2
      · exact ⟨by decide, by decide, by simp [hgrouping]⟩
    · have hall : (allSpellings.all fun s => s.toList.head?.any fun c => !isLiteralChar c) = true := by
        decide
      obtain ⟨c', back', heq, hc'⟩ := exists_head_of_spelling hall hmem
      rw [← hskip, ← hback, heq] at hc
      cases hc
      exact endsLiteral_of_not_isLiteralChar (by simpa using hc')

theorem not_isSpace_of_isOperandStart {c : Char} (h : isOperandStart c = true) :
    isSpace c = false := by
  apply Bool.eq_false_iff.mpr
  intro hspace
  revert h
  rcases isSpace_iff.mp hspace with rfl | rfl | rfl | rfl <;> decide

theorem Spells.not_isSpace_head (hnames : WordNames names) (h : Spells names grouping phrase text)
    (hphrase : phrase ≠ .arguments .noArguments) (after : List Char) :
    ∀ c ∈ (text ++ after).head?, isSpace c = false := by
  obtain ⟨c, rest, rfl, hc⟩ := h.exists_head hnames hphrase
  rintro _ ⟨⟩
  exact not_isSpace_of_isOperandStart hc

-- The operator of a chain stands behind its left operand: nothing that an operand begins with makes
-- a longer operator of it.
theorem Spells.stands_behind (hnames : WordNames names) {operator : Operator} {spelling : String}
    {gap gap' : List Char} (h : Spells names grouping (.chain first rest) text) (hgap : Spaces gap)
    (hspelling : spelling ∈ operator.spellings) (hgap' : Spaces gap') (after : List Char) :
    StandsAt spelling
      (skipSpaces (gap ++ (spelling.toList ++ (gap' ++ (text ++ after))))) := by
  rw [skipSpaces_append hgap, skipSpaces_spelling hspelling]
  refine ⟨List.prefix_append _ _, fun longer hlonger hbegins => ?_⟩
  have hall : ∀ s ∈ allSpellings, ∀ l ∈ longerSpellings s, s = "*" ∧ l = "**" := by decide
  obtain ⟨rfl, rfl⟩ := hall spelling (mem_allSpellings hspelling) longer hlonger
  have hstar : ∃ back, gap' ++ (text ++ after) = '*' :: back := by
    obtain ⟨back, hback⟩ := hbegins
    exact ⟨back, (List.cons.inj hback).2.symm⟩
  obtain ⟨back, hback⟩ := hstar
  cases gap' with
  | nil =>
    obtain ⟨c, rest', rfl, hc⟩ := h.exists_head hnames (by simp)
    cases hback
    exact absurd hc (by decide)
  | cons c gap' =>
    cases hback
    have hspace : isSpace '*' = true := hgap' _ List.mem_cons_self
    exact absurd hspace (by decide)

-- One of the operators of a chain stands behind the first text, and the second text is behind it.
def GoesOn (rest : List (Operator × Value)) (after after' : List Char) : Prop :=
  ∃ entry ∈ rest, ∃ spelling ∈ entry.1.spellings, StandsAt spelling (skipSpaces after) ∧
    after'.length < after.length

theorem GoesOn.joins (h : GoesOn rest after after') : Joins after := by
  obtain ⟨entry, _, spelling, hspelling, hstands, _⟩ := h
  exact ⟨spelling, mem_allSpellings hspelling, hstands⟩

theorem GoesOn.of_tail {entry : Operator × Value} (h : GoesOn rest after after') :
    GoesOn (entry :: rest) after after' := by
  obtain ⟨entry', hentry', h⟩ := h
  exact ⟨entry', List.mem_cons_of_mem _ hentry', h⟩

-- What may be said of any two readings at one place, by the kind of the phrase.
def ReadAlike (names : List String) (grouping : Bool) (text : List Char) : Phrase → Prop
  | .operand _ => ∀ tree' text' after after', Spells names grouping (.operand tree') text' →
      Follows grouping after → Follows grouping after' → text ++ after = text' ++ after' →
      skipSpaces after = skipSpaces after'
  | .chain _ rest => ∀ first' rest' text' after after',
      Spells names grouping (.chain first' rest') text' → Follows grouping after →
      Follows grouping after' → text ++ after = text' ++ after' →
      skipSpaces after = skipSpaces after' ∨ GoesOn rest' after after' ∨ GoesOn rest after' after
  | .arguments _ => ∀ list' text' after after', Spells names false (.arguments list') text' →
      Closes after → Closes after' → skipSpaces (text ++ after) = skipSpaces (text' ++ after') →
      skipSpaces after = skipSpaces after'

theorem literal_ne_group {bracket : Char × Char} (h : Literal grouping text)
    (hbracket : bracket ∈ brackets) (front back : List Char) :
    text ++ front ≠ bracket.1 :: back := by
  have hall : ∀ b ∈ brackets, b.1.isDigit = false ∧ b.1 ≠ '.' := by decide
  obtain ⟨c, rest, rfl, hc⟩ := h.exists_head
  intro heq
  cases heq
  obtain ⟨hdigit, hpoint⟩ := hall bracket hbracket
  rcases hc with hc | hc
  · rw [hdigit] at hc
    cases hc
  · exact hpoint hc

theorem literal_ne_call (hnames : WordNames names) {name : String} (hname : name ∈ names)
    (h : Literal grouping text) (front back : List Char) :
    text ++ front ≠ name.toList ++ back := by
  obtain ⟨c, rest, rfl, hc⟩ := h.exists_head
  obtain ⟨c', rest', heq', hc'⟩ := exists_head_of_isValidName (hnames.valid name hname)
  rw [heq']
  intro heq
  obtain rfl : c = c' := (List.cons.inj heq).1
  rcases hc with hc | rfl
  · rw [hnames.apart name hname c (by rw [heq']; rfl)] at hc
    cases hc
  · exact absurd hc' (by decide)

theorem group_ne_call (hnames : WordNames names) {name : String} (hname : name ∈ names)
    {bracket : Char × Char} (hbracket : bracket ∈ brackets) (front back : List Char) :
    bracket.1 :: front ≠ name.toList ++ back := by
  have hall : ∀ b ∈ brackets, Registry.isNameChar b.1 = false := by decide
  obtain ⟨c, rest, heq', hc⟩ := exists_head_of_isValidName (hnames.valid name hname)
  rw [heq']
  intro heq
  cases heq
  rw [hall bracket hbracket] at hc
  cases hc

-- Two names at one place, each with a bracket behind it, are one name.
theorem name_unique {name name' : String} (hname : Registry.isValidName name = true)
    (hname' : Registry.isValidName name' = true) {bracket bracket' : Char × Char}
    (hbracket : bracket ∈ brackets) (hbracket' : bracket' ∈ brackets)
    {gap gap' back back' : List Char} (hgap : Spaces gap) (hgap' : Spaces gap')
    (heq : name.toList ++ (gap ++ bracket.1 :: back) =
      name'.toList ++ (gap' ++ bracket'.1 :: back')) : name = name' := by
  have hword : ∀ (name : String) (bracket : Char × Char) (gap back : List Char),
      Registry.isValidName name = true → bracket ∈ brackets → Spaces gap →
      (name.toList ++ (gap ++ bracket.1 :: back)).takeWhile Registry.isNameChar = name.toList := by
    intro name bracket gap back hname hbracket hgap
    rw [List.takeWhile_append_of_pos fun c hc => isNameChar_of_mem hname hc]
    have hstop : (gap ++ bracket.1 :: back).takeWhile Registry.isNameChar = [] := by
      cases gap with
      | nil =>
        have hall : ∀ b ∈ brackets, Registry.isNameChar b.1 = false := by decide
        simp [hall bracket hbracket]
      | cons c gap =>
        have hc : Registry.isNameChar c = false := by
          rcases isSpace_iff.mp (hgap c List.mem_cons_self) with rfl | rfl | rfl | rfl <;> decide
        simp [hc]
    rw [hstop, List.append_nil]
  have htake := congrArg (List.takeWhile Registry.isNameChar) heq
  rw [hword name bracket gap back hname hbracket hgap,
    hword name' bracket' gap' back' hname' hbracket' hgap'] at htake
  exact String.toList_injective htake

-- Where both texts are over, neither reading goes on.
theorem readAlike_ends {first' : Value} {rest' : List (Operator × Value)} {text' : List Char}
    (h : ReadAlike names grouping text (.chain first rest))
    (h' : Spells names grouping (.chain first' rest') text') (hends : Ends grouping after)
    (hends' : Ends grouping after') (heq : text ++ after = text' ++ after') :
    skipSpaces after = skipSpaces after' := by
  rcases h first' rest' text' after after' h' (.inl hends) (.inl hends') heq with
    hsame | hgoes | hgoes
  · exact hsame
  · exact absurd hgoes.joins hends.not_joins
  · exact absurd hgoes.joins hends'.not_joins

theorem skipSpaces_comma {gap : List Char} (hgap : Spaces gap) (rest : List Char) :
    skipSpaces (gap ++ ',' :: rest) = ',' :: rest := by
  rw [skipSpaces_append hgap, skipSpaces_eq_self (by rintro _ ⟨⟩; decide)]

theorem ends_comma {gap : List Char} (hgap : Spaces gap) (rest : List Char) :
    Ends false (gap ++ ',' :: rest) := by
  intro c hc
  rw [skipSpaces_comma hgap] at hc
  cases hc
  decide

theorem Closes.head?_ne (h : Closes text) {c : Char} {back : List Char}
    (hc : ∀ b ∈ brackets, c ≠ b.2) : skipSpaces text ≠ c :: back := by
  obtain ⟨bracket, hbracket, hhead⟩ := h
  intro heq
  rw [heq] at hhead
  cases hhead
  exact hc bracket hbracket rfl

theorem Spells.skipSpaces_append (hnames : WordNames names)
    (h : Spells names grouping phrase text) (hphrase : phrase ≠ .arguments .noArguments)
    (after : List Char) : skipSpaces (text ++ after) = text ++ after :=
  skipSpaces_eq_self (h.not_isSpace_head hnames hphrase after)

theorem readAlike_literal (hnames : WordNames names) (h : Literal grouping text) :
    ReadAlike names grouping text (.operand tree) := by
  intro tree' text' after after' h' hfollows hfollows' heq
  cases h' with
  | literal hliteral _ =>
    have hrest := h.unique hliteral hfollows.endsLiteral hfollows'.endsLiteral heq
    exact congrArg skipSpaces hrest
  | group hbracket _ _ _ => exact absurd heq (literal_ne_group h hbracket _ _)
  | call hname _ _ _ _ _ _ =>
    rw [List.append_assoc] at heq
    exact absurd heq (literal_ne_call hnames hname h _ _)

theorem readAlike_group (hnames : WordNames names) {bracket : Char × Char} {gap gap' : List Char}
    (hbracket : bracket ∈ brackets) (hgap : Spaces gap)
    (h : Spells names grouping (.chain first rest) text) (hgap' : Spaces gap')
    (ih : ReadAlike names grouping text (.chain first rest)) :
    ReadAlike names grouping (bracket.1 :: (gap ++ (text ++ (gap' ++ [bracket.2]))))
      (.operand tree) := by
  intro tree' text' after after' h' _ _ heq
  cases h' with
  | literal hliteral _ => exact absurd heq.symm (literal_ne_group hliteral hbracket _ _)
  | @group _ bracket' gap₁ inner gap₂ _ _ hbracket' hgap₁ hinner hgap₂ =>
    have hinside : gap ++ (text ++ (gap' ++ bracket.2 :: after)) =
        gap₁ ++ (inner ++ (gap₂ ++ bracket'.2 :: after')) := by
      simpa using (List.cons.inj heq).2
    have hcancel := spaces_cancel hgap hgap₁ (h.not_isSpace_head hnames (by simp) _)
      (hinner.not_isSpace_head hnames (by simp) _) hinside
    have hskip := readAlike_ends ih hinner ((closes_close hbracket hgap' after).ends grouping)
      ((closes_close hbracket' hgap₂ after').ends grouping) hcancel
    rw [skipSpaces_close hbracket hgap', skipSpaces_close hbracket' hgap₂] at hskip
    exact congrArg skipSpaces (List.cons.inj hskip).2
  | call hname _ _ _ _ _ _ =>
    rw [List.append_assoc] at heq
    exact absurd heq (group_ne_call hnames hname hbracket _ _)

theorem readAlike_call (hnames : WordNames names) {name : String} {bracket : Char × Char}
    {gap gap₁ gap₂ gap₃ : List Char} {list : Value} (hname : name ∈ names)
    (hbracket : bracket ∈ brackets) (hgap : Spaces gap) (hgap₁ : Spaces gap₁)
    (hgap₂ : Spaces gap₂) (hgap₃ : Spaces gap₃) (ih : ReadAlike names false text (.arguments list)) :
    ReadAlike names grouping (name.toList ++ (gap ++ (bracket.1 :: (gap₁ ++ (text ++
      (gap₂ ++ bracket.2 :: gap₃)))))) (.operand tree) := by
  intro tree' text' after after' h' _ _ heq
  rw [List.append_assoc name.toList] at heq
  cases h' with
  | literal hliteral _ => exact absurd heq.symm (literal_ne_call hnames hname hliteral _ _)
  | group hbracket' _ _ _ => exact absurd heq.symm (group_ne_call hnames hname hbracket' _ _)
  | @call _ name' bracket' gap' gap₁' text' gap₂' gap₃' list' hname' hbracket' hgap' hgap₁' hlist'
      hgap₂' hgap₃' =>
    rw [List.append_assoc name'.toList] at heq
    simp only [List.append_assoc, List.cons_append] at heq
    obtain rfl := name_unique (hnames.valid name hname) (hnames.valid name' hname') hbracket
      hbracket' hgap hgap' heq
    have hopen := spaces_cancel hgap hgap'
      (by rintro _ ⟨⟩; exact (not_isSpace_bracket hbracket).1)
      (by rintro _ ⟨⟩; exact (not_isSpace_bracket hbracket').1) (List.append_cancel_left heq)
    have hinside := congrArg skipSpaces (List.cons.inj hopen).2
    rw [skipSpaces_append hgap₁, skipSpaces_append hgap₁'] at hinside
    have hskip := ih list' text' _ _ hlist' (closes_close hbracket hgap₂ (gap₃ ++ after))
      (closes_close hbracket' hgap₂' (gap₃' ++ after')) hinside
    rw [skipSpaces_close hbracket hgap₂, skipSpaces_close hbracket' hgap₂'] at hskip
    have hbehind := congrArg skipSpaces (List.cons.inj hskip).2
    rwa [skipSpaces_append hgap₃, skipSpaces_append hgap₃'] at hbehind

-- A chain goes on where its first operand ends.
theorem goesOn_joined (hnames : WordNames names) {operator : Operator} {spelling : String}
    {gap gap' : List Char} (hgap : Spaces gap) (hspelling : spelling ∈ operator.spellings)
    (hgap' : Spaces gap') (h : Spells names grouping (.chain first rest) text)
    (hskip : skipSpaces after =
      skipSpaces (gap ++ (spelling.toList ++ (gap' ++ (text ++ after'))))) :
    GoesOn ((operator, first) :: rest) after after' := by
  have hstands := h.stands_behind hnames hgap hspelling hgap' after'
  refine ⟨_, List.mem_cons_self, spelling, hspelling, hskip ▸ hstands, ?_⟩
  have hle : (skipSpaces after).length ≤ after.length := List.length_dropWhile_le _ _
  have hpositive := length_spelling_pos hspelling
  rw [hskip, skipSpaces_append hgap, skipSpaces_spelling hspelling] at hle
  simp only [List.length_append] at hle
  omega

theorem readAlike_single (hnames : WordNames names)
    (ih : ReadAlike names grouping text (.operand tree)) :
    ReadAlike names grouping text (.chain tree []) := by
  intro first' rest' text' after after' h' hfollows hfollows' heq
  cases h' with
  | single h' => exact .inl (ih _ _ _ _ h' hfollows hfollows' heq)
  | joined h' hgap hspelling hgap' hothers =>
    have hstands := hothers.stands_behind hnames hgap hspelling hgap' after'
    simp only [List.append_assoc] at heq
    have hskip := ih _ _ _ _ h' hfollows (.inr ⟨_, mem_allSpellings hspelling, hstands⟩) heq
    exact .inr (.inl (goesOn_joined hnames hgap hspelling hgap' hothers hskip))

theorem readAlike_joined (hnames : WordNames names) {operator : Operator} {spelling : String}
    {gap gap' others : List Char} (hgap : Spaces gap) (hspelling : spelling ∈ operator.spellings)
    (hgap' : Spaces gap') (hothers : Spells names grouping (.chain first rest) others)
    (ih : ReadAlike names grouping text (.operand tree))
    (ihothers : ReadAlike names grouping others (.chain first rest)) :
    ReadAlike names grouping (text ++ (gap ++ (spelling.toList ++ (gap' ++ others))))
      (.chain tree ((operator, first) :: rest)) := by
  intro first' rest' text' after after' h' hfollows hfollows' heq
  have hstands := hothers.stands_behind hnames hgap hspelling hgap' after
  have hjoins : Joins (gap ++ (spelling.toList ++ (gap' ++ (others ++ after)))) :=
    ⟨spelling, mem_allSpellings hspelling, hstands⟩
  simp only [List.append_assoc] at heq
  cases h' with
  | single h' =>
    have hskip := ih _ _ _ _ h' (.inr hjoins) hfollows' heq
    exact .inr (.inr (goesOn_joined hnames hgap hspelling hgap' hothers hskip.symm))
  | joined h' hgap₁ hspelling' hgap₁' hothers' =>
    have hstands' := hothers'.stands_behind hnames hgap₁ hspelling' hgap₁' after'
    simp only [List.append_assoc] at heq
    have hskip := ih _ _ _ _ h' (.inr hjoins) (.inr ⟨_, mem_allSpellings hspelling', hstands'⟩) heq
    obtain rfl := (hskip ▸ hstands).unique hstands' (mem_allSpellings hspelling)
      (mem_allSpellings hspelling')
    rw [skipSpaces_append hgap, skipSpaces_append hgap₁, skipSpaces_spelling hspelling,
      skipSpaces_spelling hspelling] at hskip
    have hcancel := spaces_cancel hgap' hgap₁' (hothers.not_isSpace_head hnames (by simp) _)
      (hothers'.not_isSpace_head hnames (by simp) _) (List.append_cancel_left hskip)
    rcases ihothers _ _ _ _ _ hothers' hfollows hfollows' hcancel with hsame | hgoes | hgoes
    · exact .inl hsame
    · exact .inr (.inl hgoes.of_tail)
    · exact .inr (.inr hgoes.of_tail)

-- No phrase begins where a bracket closes.
theorem Closes.ne_phrase (hnames : WordNames names) (h : Closes after)
    (hspells : Spells names grouping phrase text) (hphrase : phrase ≠ .arguments .noArguments) :
    skipSpaces after ≠ skipSpaces (text ++ after') := by
  have hall : ∀ b ∈ brackets, isOperandStart b.2 = false := by decide
  rw [hspells.skipSpaces_append hnames hphrase]
  obtain ⟨c, back, rfl, hc⟩ := hspells.exists_head hnames hphrase
  refine h.head?_ne fun bracket hbracket heq => ?_
  rw [heq, hall bracket hbracket] at hc
  cases hc

theorem readAlike_noArguments (hnames : WordNames names) :
    ReadAlike names false [] (.arguments .noArguments) := by
  intro list' text' after after' h' hcloses _ heq
  by_cases hlist : list' = .noArguments
  · subst hlist
    cases h'
    exact heq
  · exact absurd heq (hcloses.ne_phrase hnames h' (by simpa using hlist))

theorem readAlike_lastArgument (hnames : WordNames names)
    (h : Spells names false (.chain first rest) text)
    (ih : ReadAlike names false text (.chain first rest)) :
    ReadAlike names false text (.arguments (.argument (assemble first rest) .noArguments)) := by
  intro list' text' after after' h' hcloses hcloses' heq
  rw [h.skipSpaces_append hnames (by simp)] at heq
  cases h' with
  | noArguments =>
    rw [← h.skipSpaces_append hnames (by simp)] at heq
    exact absurd heq.symm (hcloses'.ne_phrase hnames h (by simp))
  | lastArgument h' =>
    rw [h'.skipSpaces_append hnames (by simp)] at heq
    exact readAlike_ends ih h' (hcloses.ends false) (hcloses'.ends false) heq
  | moreArguments h' hgap _ _ _ =>
    simp only [List.append_assoc, List.cons_append] at heq
    rw [h'.skipSpaces_append hnames (by simp)] at heq
    have hskip := readAlike_ends ih h' (hcloses.ends false) (ends_comma hgap _) heq
    rw [skipSpaces_comma hgap] at hskip
    exact absurd hskip (hcloses.head?_ne (by decide))

theorem readAlike_moreArguments (hnames : WordNames names) {gap gap' others : List Char}
    {list : Value} (h : Spells names false (.chain first rest) text) (hgap : Spaces gap)
    (hgap' : Spaces gap') (ih : ReadAlike names false text (.chain first rest))
    (ihothers : ReadAlike names false others (.arguments list)) :
    ReadAlike names false (text ++ (gap ++ (',' :: (gap' ++ others))))
      (.arguments (.argument (assemble first rest) list)) := by
  intro list' text' after after' h' hcloses hcloses' heq
  simp only [List.append_assoc, List.cons_append] at heq
  cases h' with
  | noArguments => exact absurd heq.symm (hcloses'.ne_phrase hnames h (by simp))
  | lastArgument h' =>
    rw [h.skipSpaces_append hnames (by simp), h'.skipSpaces_append hnames (by simp)] at heq
    have hskip := readAlike_ends ih h' (ends_comma hgap _) (hcloses'.ends false) heq
    rw [skipSpaces_comma hgap] at hskip
    exact absurd hskip.symm (hcloses'.head?_ne (by decide))
  | moreArguments h' hgap₁ hgap₁' _ hothers' =>
    simp only [List.append_assoc, List.cons_append] at heq
    rw [h.skipSpaces_append hnames (by simp), h'.skipSpaces_append hnames (by simp)] at heq
    have hskip := readAlike_ends ih h' (ends_comma hgap _) (ends_comma hgap₁ _) heq
    rw [skipSpaces_comma hgap, skipSpaces_comma hgap₁] at hskip
    have hbehind := congrArg skipSpaces (List.cons.inj hskip).2
    rw [skipSpaces_append hgap', skipSpaces_append hgap₁'] at hbehind
    exact ihothers _ _ _ _ hothers' hcloses hcloses' hbehind

theorem Spells.readAlike (hnames : WordNames names) (h : Spells names grouping phrase text) :
    ReadAlike names grouping text phrase := by
  induction h with
  | literal hliteral _ => exact readAlike_literal hnames hliteral
  | group hbracket hgap hinner hgap' ih =>
    exact readAlike_group hnames hbracket hgap hinner hgap' ih
  | call hname hbracket hgap hgap₁ _ hgap₂ hgap₃ ih =>
    exact readAlike_call hnames hname hbracket hgap hgap₁ hgap₂ hgap₃ ih
  | single _ ih => exact readAlike_single hnames ih
  | joined _ hgap hspelling hgap' hothers ih ih' =>
    exact readAlike_joined hnames hgap hspelling hgap' hothers ih ih'
  | noArguments => exact readAlike_noArguments hnames
  | lastArgument h ih => exact readAlike_lastArgument hnames h ih
  | moreArguments h hgap hgap' _ _ ih ih' =>
    exact readAlike_moreArguments hnames h hgap hgap' ih ih'

end Abacus.Grammar
