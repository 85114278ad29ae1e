import Abacus.Proofs.Grammar.Splits

namespace Abacus.Grammar

open Abacus.Pattern Abacus.Parser

variable {rules : RuleName → Parser} {names : List String} {view : View} {rule : RuleName}
  {grouping : Bool} {gap gap' text after : List Char} {bracket : Char × Char} {first list : Value}
  {rest : List (Operator × Value)}

theorem bracketed_fails {inner : Pattern} (h : view.chars.head? ≠ some bracket.1) :
    Fails ((bracketed inner bracket).parser rules) view :=
  seq_fails_left (character_fails h)

-- What is between the brackets may take some of the spaces behind it: the others are left.
theorem bracketed_takes {inner : Pattern} {value : Value} (hbracket : bracket ∈ brackets)
    (hgap : Spaces gap) (hgap' : Spaces gap')
    (hview : view.chars = (bracket.1 :: (gap ++ (text ++ (gap' ++ [bracket.2])))) ++ after)
    (hhead : ∀ c ∈ (text ++ (gap' ++ bracket.2 :: after)).head?, isSpace c = false)
    (hinner : ∀ view' : View, view'.size < view.size →
      view'.chars = text ++ (gap' ++ bracket.2 :: after) →
      TakesText (inner.parser rules) view' text (gap' ++ bracket.2 :: after) value) :
    Takes ((bracketed inner bracket).parser rules) view
      (bracket.1 :: (gap ++ (text ++ (gap' ++ [bracket.2])))).length value := by
  have hview' : view.chars = bracket.1 :: (gap ++ (text ++ (gap' ++ bracket.2 :: after))) := by
    simpa using hview
  have hopen := View.chars_drop_one hview'
  have hinside := View.chars_drop_length hopen
  have hsize : ((view.drop 1).drop gap.length).size < view.size := by
    have hpositive : 0 < view.size := by simp [← View.length_chars, hview']
    simp only [View.size_drop]
    omega
  have hclose := (not_isSpace_bracket hbracket).2
  obtain ⟨gap₁, rest', hrest', hgap₁, htakes⟩ := hinner _ hsize hinside
  obtain ⟨gap₂, hgap₂, hgaps, rfl⟩ := exists_gap_of_append_eq hgap' hgap₁ hclose hrest'
  rw [hrest'] at hinside
  have hbehind := View.chars_drop_lengths hinside
  have hlast := View.chars_drop_length hbehind
  have hparts : Takes ((bracketed inner bracket).parser rules) view _ _ :=
    seq_second_takes (character_takes hview') (seq_second_takes (blanks_takes hgap hopen hhead)
      (seq_first_takes htakes (seq_second_takes
        (blanks_takes hgap₂ hbehind (by rintro _ ⟨⟩; exact hclose)) (character_takes hlast))))
  convert hparts using 1
  simp only [hgaps, List.length_cons, List.length_append, List.length_nil]
  omega

theorem group_takes (hnames : WordNames names) (hbelow : ReadsBelow names rules view.size)
    (hrule : grouping? rule = some grouping) (hbracket : bracket ∈ brackets) (hgap : Spaces gap)
    (h : Spells names grouping (.chain first rest) text) (hgap' : Spaces gap')
    (hview : view.chars = (bracket.1 :: (gap ++ (text ++ (gap' ++ [bracket.2])))) ++ after) :
    Takes ((bracketed (call rule) bracket).parser rules) view
      (bracket.1 :: (gap ++ (text ++ (gap' ++ [bracket.2])))).length (assemble first rest) := by
  apply bracketed_takes hbracket hgap hgap' hview (h.not_isSpace_head hnames (by simp) _)
  intro view' hsize hchars
  exact hbelow.chain view' rule grouping first rest text _ hsize hrule h hchars
    ((closes_close hbracket hgap' after).ends grouping)

-- The brackets are tried in turn, and no two of them begin with the same character.
theorem exists_brackets_eq (h : bracket ∈ brackets) :
    ∃ before behind, brackets = before ++ bracket :: behind ∧ ∀ b ∈ before, b.1 ≠ bracket.1 := by
  have hall : ∀ b ∈ brackets, ∀ b' ∈ brackets, b.1 = b'.1 → b = b' := by decide
  obtain ⟨before, behind, heq, hnot⟩ := List.eq_append_cons_of_mem h
  refine ⟨before, behind, heq, fun b hb hsame => ?_⟩
  exact hnot (hall b (heq ▸ List.mem_append_left _ hb) bracket h hsame ▸ hb)

-- No argument begins where a bracket closes.
theorem arguments_fail (hnames : WordNames names)
    (hsound : Reads (rules .arguments) view (Derives names .arguments))
    (hcloses : Closes view.chars) : Fails (rules .arguments) view := by
  rcases hsound with hfails | ⟨count, value, _, _, hderives⟩
  · exact hfails
  exfalso
  obtain ⟨lead, body, list, htake, hlead, hlist, hbody⟩ := hderives.isFlat.arguments rfl
  have hview : view.chars = lead ++ (body ++ view.chars.drop count) := by
    rw [← List.append_assoc, ← htake, List.take_append_drop]
  have hskip := congrArg skipSpaces hview
  rw [skipSpaces_append hlead] at hskip
  exact hcloses.ne_phrase hnames hbody (by rintro ⟨⟩; cases hlist) hskip

theorem callArguments_takes (hnames : WordNames names) {size : Nat}
    (hbelow : ReadsBelow names rules size) (hsize : view.size < size)
    (h : Spells names false (.arguments list) text) (hview : view.chars = text ++ after)
    (hcloses : Closes after) :
    TakesText (callArguments.parser rules) view text after list := by
  by_cases hlist : list.isArgument = true
  · obtain ⟨gap, after', hafter, hgap, htakes⟩ :=
      hbelow.arguments view list text after hsize hlist h hview hcloses
    have hsame : orNoArguments list = list := by simp [orNoArguments, hlist]
    exact ⟨gap, after', hafter, hgap,
      mapValue_takes (optionally_takes htakes) (congrArg Except.ok hsame) htakes.1⟩
  · cases h with
    | noArguments =>
      have hfails : Fails (rules .arguments) view :=
        arguments_fail hnames (hbelow.sound .arguments (by decide) view hsize) (hview ▸ hcloses)
      exact ⟨[], after, rfl, spaces_nil, mapValue_takes (optionally_takes_none hfails) rfl rfl⟩
    | lastArgument _ => exact absurd rfl hlist
    | moreArguments _ _ _ _ _ => exact absurd rfl hlist

-- Without arguments all the spaces between the brackets are in front of them.
theorem bracketedArguments_takes (hnames : WordNames names) {size : Nat}
    (hbelow : ReadsBelow names rules size) (hsize : view.size ≤ size) (hbracket : bracket ∈ brackets)
    (hgap : Spaces gap) (h : Spells names false (.arguments list) text) (hgap' : Spaces gap')
    (hview : view.chars = (bracket.1 :: (gap ++ (text ++ (gap' ++ [bracket.2])))) ++ after) :
    Takes ((bracketed callArguments bracket).parser rules) view
      (bracket.1 :: (gap ++ (text ++ (gap' ++ [bracket.2])))).length list := by
  have hinner : ∀ gap', Spaces gap' → ∀ view' : View, view'.size < view.size →
      view'.chars = text ++ (gap' ++ bracket.2 :: after) →
      TakesText (callArguments.parser rules) view' text (gap' ++ bracket.2 :: after) list := by
    intro gap' hgap' view' hview' hchars
    exact callArguments_takes hnames hbelow (by omega) h hchars (closes_close hbracket hgap' after)
  by_cases hlist : list = .noArguments
  · subst hlist
    cases h
    have htakes := bracketed_takes hbracket (spaces_append.mpr ⟨hgap, hgap'⟩) spaces_nil
      (by simpa using hview) (by rintro _ ⟨⟩; exact (not_isSpace_bracket hbracket).2)
      (hinner [] spaces_nil)
    simpa using htakes
  · exact bracketed_takes hbracket hgap hgap' hview
      (h.not_isSpace_head hnames (by simpa using hlist) _) (hinner gap' hgap')

theorem callBrackets_takes (hnames : WordNames names) {size : Nat}
    (hbelow : ReadsBelow names rules size) (hsize : view.size ≤ size) (hbracket : bracket ∈ brackets)
    (hgap : Spaces gap) (h : Spells names false (.arguments list) text) (hgap' : Spaces gap')
    (hview : view.chars = (bracket.1 :: (gap ++ (text ++ (gap' ++ [bracket.2])))) ++ after) :
    Takes ((firstOf (brackets.map (bracketed callArguments))).parser rules) view
      (bracket.1 :: (gap ++ (text ++ (gap' ++ [bracket.2])))).length list := by
  obtain ⟨before, behind, heq, hne⟩ := exists_brackets_eq hbracket
  rw [heq, List.map_append, List.map_cons]
  refine firstOf_parser_takes (fun p hp => ?_)
    (bracketedArguments_takes hnames hbelow hsize hbracket hgap h hgap' hview)
  obtain ⟨b, hb, rfl⟩ := List.mem_map.mp hp
  apply bracketed_fails
  rw [hview]
  simpa using (hne b hb).symm

theorem callBrackets_fails (h : ∀ bracket ∈ brackets, view.chars.head? ≠ some bracket.1) :
    Fails ((firstOf (brackets.map (bracketed callArguments))).parser rules) view := by
  apply firstOf_parser_fails
  intro p hp
  obtain ⟨bracket, hbracket, rfl⟩ := List.mem_map.mp hp
  exact bracketed_fails (h bracket hbracket)

-- A name stands at the beginning of the text, with an opening bracket behind it.
def CalledAt (name : String) (text : List Char) : Prop :=
  ∃ (gap : List Char) (bracket : Char × Char) (back : List Char), bracket ∈ brackets ∧ Spaces gap ∧
    text = name.toList ++ (gap ++ bracket.1 :: back)

-- A call is not read where its name stands without a bracket behind it, or not at all.
theorem application_fails_of_not_calledAt {name : String}
    (h : ¬CalledAt name (skipSpaces view.chars)) : Fails ((application name).parser rules) view := by
  obtain ⟨lead, -, -, hchars, hblanks⟩ := blanks_takes_skipSpaces rules view
  by_cases hword : name.toList <+: skipSpaces view.chars
  · obtain ⟨back, hback⟩ := hword
    have hback' : (view.drop lead.length).chars = name.toList ++ back := by rw [hchars, hback]
    obtain ⟨gap, hgap, hskip, hrest, hgapTakes⟩ :=
      blanks_takes_skipSpaces rules ((view.drop lead.length).drop name.toList.length)
    rw [View.chars_drop_length hback'] at hskip hrest
    have hbrackets : Fails ((firstOf (brackets.map (bracketed callArguments))).parser rules)
        (((view.drop lead.length).drop name.toList.length).drop gap.length) := by
      apply callBrackets_fails
      intro bracket hbracket hopen
      rw [hrest] at hopen
      obtain ⟨back', hback'⟩ := List.head?_eq_some_iff.mp hopen
      exact h ⟨gap, bracket, back', hbracket, hgap, by rw [← hback', ← hskip, hback]⟩
    have hwordTakes : Takes ((word name).parser rules) (view.drop lead.length) _ _ :=
      word_takes ⟨back, hback'.symm⟩
    exact mapValue_fails (seq_fails_right hblanks (seq_fails_right hwordTakes
      (seq_fails_right hgapTakes (seq_fails_left hbrackets))))
  · have hwordFails : Fails ((word name).parser rules) (view.drop lead.length) :=
      word_fails (by rwa [hchars])
    exact mapValue_fails (seq_fails_right hblanks (seq_fails_left hwordFails))

theorem application_fails {name : String} (hhead : ∀ c ∈ view.chars.head?, isSpace c = false)
    (h : ∀ (gap : List Char) (bracket : Char × Char) (back : List Char), bracket ∈ brackets →
      Spaces gap → view.chars ≠ name.toList ++ (gap ++ bracket.1 :: back)) :
    Fails ((application name).parser rules) view := by
  apply application_fails_of_not_calledAt
  rw [skipSpaces_eq_self hhead]
  rintro ⟨gap, bracket, back, hbracket, hgap, hchars⟩
  exact h gap bracket back hbracket hgap hchars

-- The spaces behind the closing bracket are taken, all of them.
theorem application_takes (hnames : WordNames names) (hbelow : ReadsBelow names rules view.size)
    {name : String} {gap₁ gap₂ gap₃ : List Char} (hname : name ∈ names)
    (hbracket : bracket ∈ brackets) (hgap : Spaces gap) (hgap₁ : Spaces gap₁)
    (h : Spells names false (.arguments list) text) (hgap₂ : Spaces gap₂) (hgap₃ : Spaces gap₃)
    (hview : view.chars = name.toList ++ (gap ++ ((bracket.1 :: (gap₁ ++ (text ++ (gap₂ ++
      [bracket.2])))) ++ (gap₃ ++ after)))) :
    TakesText ((application name).parser rules) view (name.toList ++ (gap ++ (bracket.1 ::
      (gap₁ ++ (text ++ (gap₂ ++ bracket.2 :: gap₃)))))) after (.call name list) := by
  obtain ⟨c, word', heq, hc⟩ := exists_head_of_isValidName (hnames.valid name hname)
  have hnotSpace : ∀ c ∈ view.chars.head?, isSpace c = false := by
    rw [hview, heq]
    rintro _ ⟨⟩
    exact not_isSpace_of_isOperandStart (by simp [isOperandStart, hc])
  rw [← View.drop_zero view] at hview
  have hwordTakes : Takes ((word name).parser rules) (view.drop 0) _ _ :=
    word_takes ⟨_, hview.symm⟩
  have hbehind := View.chars_drop_length hview
  have hopen := View.chars_drop_length hbehind
  have hbrackets := callBrackets_takes hnames hbelow
    (by simp only [View.size_drop]; omega) hbracket hgap₁ h hgap₂ hopen
  obtain ⟨gap₄, after', spaces, hafter, hgap₄, hspaces⟩ :=
    blanks_takes_more rules hgap₃ (View.chars_drop_length hopen)
  refine ⟨gap₄, after', hafter, hgap₄, ?_⟩
  have hparts : Takes ((application name).parser rules) view _ _ :=
    mapValue_takes (seq_second_takes (blanks_takes spaces_nil (List.nil_append _).symm hnotSpace)
      (seq_second_takes hwordTakes (seq_second_takes
        (blanks_takes hgap hbehind (by rintro _ ⟨⟩; exact (not_isSpace_bracket hbracket).1))
        (seq_first_takes hbrackets hspaces)))) rfl rfl
  convert hparts using 1
  simp only [List.length_cons, List.length_append, List.length_nil]
  omega

end Abacus.Grammar
