import Abacus.Proofs.Grammar.Calls
import Abacus.Proofs.Grammar.Whole

namespace Abacus.Grammar

open Abacus.Pattern Abacus.Parser

variable {rules : RuleName → Parser} {names : List String} {grammar : Grammar} {view : View}
  {rule : RuleName} {grouping : Bool} {text after : List Char} {first tree : Value}
  {rest : List (Operator × Value)}

theorem alternatives_take_literal {x : Float}
    (hbinaries : ∀ p ∈ Operator.all.map (binary rule), Fails (p.parser rules) view)
    (hhead : ∀ c ∈ view.chars.head?, isSpace c = false) (hnames : WordNames grammar.names)
    (h : Literal grouping text) (hx : literalValue? text = some x)
    (hview : view.chars = text ++ after) (hends : Ends grouping after) :
    Takes ((grammar.alternatives rule (numeral grouping)).parser rules) view text.length
      (.number x) := by
  refine firstOf_parser_takes (fun p hp => ?_)
    (numeral_takes h hx hview (Follows.endsLiteral (.inl hends)))
  simp only [List.mem_append, List.mem_map] at hp
  rcases hp with (hp | ⟨name, hname, rfl⟩) | ⟨bracket, hbracket, rfl⟩
  · exact hbinaries p (List.mem_map.mpr hp)
  · apply application_fails hhead
    intro gap bracket back _ _
    rw [hview]
    exact literal_ne_call hnames hname h _ _
  · apply bracketed_fails
    intro hopen
    obtain ⟨back, hback⟩ := List.head?_eq_some_iff.mp hopen
    exact literal_ne_group h hbracket after back (hview ▸ hback)

theorem alternatives_take_group {bracket : Char × Char} {gap gap' : List Char}
    (hbinaries : ∀ p ∈ Operator.all.map (binary rule), Fails (p.parser rules) view)
    (hhead : ∀ c ∈ view.chars.head?, isSpace c = false) (hnames : WordNames grammar.names)
    (hbelow : ReadsBelow grammar.names rules view.size) (hrule : grouping? rule = some grouping)
    (hbracket : bracket ∈ brackets) (hgap : Spaces gap)
    (h : Spells grammar.names grouping (.chain first rest) text) (hgap' : Spaces gap')
    (hview : view.chars = (bracket.1 :: (gap ++ (text ++ (gap' ++ [bracket.2])))) ++ after) :
    Takes ((grammar.alternatives rule (numeral grouping)).parser rules) view
      (bracket.1 :: (gap ++ (text ++ (gap' ++ [bracket.2])))).length (assemble first rest) := by
  obtain ⟨before, behind, heq, hne⟩ := exists_brackets_eq hbracket
  have halternatives : grammar.alternatives rule (numeral grouping) = firstOf
      ((Operator.all.map (binary rule) ++ grammar.names.map application ++
        before.map (bracketed (call rule))) ++ bracketed (call rule) bracket ::
          (behind.map (bracketed (call rule)) ++ [numeral grouping])) := by
    simp [alternatives, heq]
  rw [halternatives]
  refine firstOf_parser_takes (fun p hp => ?_)
    (group_takes hnames hbelow hrule hbracket hgap h hgap' hview)
  simp only [List.mem_append, List.mem_map] at hp
  rcases hp with (hp | ⟨name, hname, rfl⟩) | ⟨bracket', hbracket', rfl⟩
  · exact hbinaries p (List.mem_map.mpr hp)
  · apply application_fails hhead
    intro gap bracket back _ _
    rw [hview]
    exact group_ne_call hnames hname hbracket _ _
  · apply bracketed_fails
    rw [hview]
    simpa using (hne bracket' hbracket').symm

theorem alternatives_take_call {name : String} {bracket : Char × Char}
    {gap gap₁ gap₂ gap₃ : List Char} {list : Value}
    (hbinaries : ∀ p ∈ Operator.all.map (binary rule), Fails (p.parser rules) view)
    (hhead : ∀ c ∈ view.chars.head?, isSpace c = false) (hnames : WordNames grammar.names)
    (hbelow : ReadsBelow grammar.names rules view.size) (hname : name ∈ grammar.names)
    (hbracket : bracket ∈ brackets) (hgap : Spaces gap) (hgap₁ : Spaces gap₁)
    (h : Spells grammar.names false (.arguments list) text) (hgap₂ : Spaces gap₂)
    (hgap₃ : Spaces gap₃)
    (hview : view.chars = (name.toList ++ (gap ++ (bracket.1 :: (gap₁ ++ (text ++ (gap₂ ++
      bracket.2 :: gap₃)))))) ++ after) :
    TakesText ((grammar.alternatives rule (numeral grouping)).parser rules) view (name.toList ++
      (gap ++ (bracket.1 :: (gap₁ ++ (text ++ (gap₂ ++ bracket.2 :: gap₃)))))) after
      (.call name list) := by
  obtain ⟨before, behind, heq, hnot⟩ := List.eq_append_cons_of_mem hname
  obtain ⟨gap₄, after', hafter, hgap₄, htakes⟩ := application_takes hnames hbelow hname hbracket
    hgap hgap₁ h hgap₂ hgap₃ (by simpa using hview)
  refine ⟨gap₄, after', hafter, hgap₄, ?_⟩
  have halternatives : grammar.alternatives rule (numeral grouping) = firstOf
      ((Operator.all.map (binary rule) ++ before.map application) ++ application name ::
        (behind.map application ++ (brackets.map (bracketed (call rule)) ++
          [numeral grouping]))) := by
    simp [alternatives, heq]
  rw [halternatives]
  refine firstOf_parser_takes (fun p hp => ?_) htakes
  simp only [List.mem_append, List.mem_map] at hp
  rcases hp with hp | ⟨name', hname', rfl⟩
  · exact hbinaries p (List.mem_map.mpr hp)
  · apply application_fails hhead
    intro gap' bracket' back hbracket' hgap' hother
    have hmem : name' ∈ grammar.names := heq ▸ List.mem_append_left _ hname'
    have hview' : view.chars = name.toList ++ (gap ++ (bracket.1 :: (gap₁ ++ (text ++ (gap₂ ++
        bracket.2 :: (gap₃ ++ after)))))) := by
      simpa using hview
    obtain rfl := name_unique (hnames.valid name hname) (hnames.valid name' hmem) hbracket
      hbracket' hgap hgap' (hview'.symm.trans hother)
    exact hnot hname'

-- An operand is read by the alternative of its kind: no operator joins it to anything, and the
-- other kinds do not begin as it does.
theorem alternatives_take_operand (hnames : WordNames grammar.names)
    (hbelow : ReadsBelow grammar.names rules view.size) (hrule : grouping? rule = some grouping)
    (h : Spells grammar.names grouping (.operand tree) text) (hview : view.chars = text ++ after)
    (hends : Ends grouping after) :
    TakesText ((grammar.alternatives rule (numeral grouping)).parser rules) view text after
      tree := by
  have hbinaries : ∀ p ∈ Operator.all.map (binary rule), Fails (p.parser rules) view := by
    intro p hp
    obtain ⟨operator, _, rfl⟩ := List.mem_map.mp hp
    exact binary_fails hnames hbelow hrule (.single h) hview hends (by simp)
  have hhead : ∀ c ∈ view.chars.head?, isSpace c = false :=
    hview ▸ h.not_isSpace_head hnames (by simp) after
  cases h with
  | literal hliteral hx =>
    exact ⟨[], after, rfl, spaces_nil,
      alternatives_take_literal hbinaries hhead hnames hliteral hx hview hends⟩
  | group hbracket hgap hinner hgap' =>
    exact ⟨[], after, rfl, spaces_nil, alternatives_take_group hbinaries hhead hnames hbelow hrule
      hbracket hgap hinner hgap' hview⟩
  | call hname hbracket hgap hgap₁ hlist hgap₂ hgap₃ =>
    exact alternatives_take_call hbinaries hhead hnames hbelow hname hbracket hgap hgap₁ hlist
      hgap₂ hgap₃ hview

-- A chain is read by the operator that splits it: those that are tried before do not occur in it.
theorem alternatives_take_chain (hnames : WordNames grammar.names)
    (hbelow : ReadsBelow grammar.names rules view.size) (hrule : grouping? rule = some grouping)
    (h : Spells grammar.names grouping (.chain first rest) text)
    (hview : view.chars = text ++ after) (hends : Ends grouping after) :
    TakesText ((grammar.alternatives rule (numeral grouping)).parser rules) view text after
      (assemble first rest) := by
  by_cases hne : rest = []
  · subst hne
    cases h with
    | single h =>
      rw [assemble_nil]
      exact alternatives_take_operand hnames hbelow hrule h hview hends
  · obtain ⟨earlier, operator, later, before, next, others, hall, hearlier, rfl, hbefore, htree⟩ :=
      assemble_splits first hne
    obtain ⟨front, gap, spelling, gap', back, rfl, hfront, hgap, hspelling, hgap', hback⟩ := h.split
    obtain ⟨core, trail, rfl, htrail, hcore, hsolid⟩ := hfront.exists_core (by simp)
    have hview' : view.chars =
        core ++ ((trail ++ gap) ++ (spelling.toList ++ (gap' ++ (back ++ after)))) := by
      simpa using hview
    obtain ⟨gap₀, after', hafter, hgap₀, htakes⟩ :=
      binary_takes hnames hbelow hrule hcore hsolid (spaces_append.mpr ⟨htrail, hgap⟩) hspelling
        hgap' hback hview' hends hbefore
    refine ⟨gap₀, after', hafter, hgap₀, ?_⟩
    have halternatives : grammar.alternatives rule (numeral grouping) = firstOf
        (earlier.map (binary rule) ++ binary rule operator :: (later.map (binary rule) ++
          (grammar.names.map application ++ (brackets.map (bracketed (call rule)) ++
            [numeral grouping])))) := by
      simp [alternatives, hall]
    rw [halternatives, htree]
    refine firstOf_parser_takes (fun p hp => ?_) (by simpa using htakes)
    obtain ⟨other, hother, rfl⟩ := List.mem_map.mp hp
    exact binary_fails hnames hbelow hrule h hview hends (hearlier other hother)

-- Another argument, with the comma in front of it.
def furtherArguments : Pattern := sequenceKeeping [blanks, comma, blanks, call .arguments] 3

theorem furtherArguments_fails (h : Closes view.chars) :
    Fails (furtherArguments.parser rules) view := by
  obtain ⟨gap, _, _, hbehind, htakes⟩ := blanks_takes_skipSpaces rules view
  refine seq_fails_right htakes (seq_fails_left (character_fails fun hcomma => ?_))
  obtain ⟨back, hback⟩ := List.head?_eq_some_iff.mp hcomma
  exact h.head?_ne (by decide) (hbehind ▸ hback)

theorem furtherArguments_takes (hnames : WordNames names) {size : Nat}
    (hbelow : ReadsBelow names rules size) (hsize : view.size ≤ size) {gap gap' : List Char}
    {list : Value} (hlist : list.isArgument = true) (hgap : Spaces gap) (hgap' : Spaces gap')
    (h : Spells names false (.arguments list) text)
    (hview : view.chars = gap ++ (',' :: (gap' ++ (text ++ after)))) (hcloses : Closes after) :
    TakesText (furtherArguments.parser rules) view (gap ++ (',' :: (gap' ++ text))) after list := by
  have hcomma := View.chars_drop_length hview
  have hbehind := View.chars_drop_one hcomma
  have hlast := View.chars_drop_length hbehind
  have hphrase : Phrase.arguments list ≠ .arguments .noArguments := by
    rintro ⟨⟩
    cases hlist
  have hsmaller : (((view.drop gap.length).drop 1).drop gap'.length).size < size := by
    have hlength := congrArg List.length hview
    simp only [View.length_chars, List.length_append, List.length_cons] at hlength
    simp only [View.size_drop]
    omega
  obtain ⟨gap₀, after', hafter, hgap₀, htakes⟩ :=
    hbelow.arguments _ list text after hsmaller hlist h hlast hcloses
  refine ⟨gap₀, after', hafter, hgap₀, ?_⟩
  have hparts : Takes (furtherArguments.parser rules) view _ _ :=
    seq_second_takes (blanks_takes hgap hview (by rintro _ ⟨⟩; decide))
      (seq_second_takes (character_takes hcomma)
        (seq_second_takes (blanks_takes hgap' hbehind (h.not_isSpace_head hnames hphrase after))
          htakes))
  convert hparts using 1
  simp only [List.length_cons, List.length_append]
  omega

-- The first argument is read on the whole view, and the others behind a comma.
theorem argumentsBody_takes (hnames : WordNames names) (hbelow : ReadsBelow names rules view.size)
    (hargument : ∀ (first : Value) (rest : List (Operator × Value)) (text after : List Char),
      Spells names false (.chain first rest) text → view.chars = text ++ after →
      Ends false after → TakesText (rules .argument) view text after (assemble first rest))
    {list : Value} (hlist : list.isArgument = true) (h : Spells names false (.arguments list) text)
    (hview : view.chars = text ++ after) (hcloses : Closes after) :
    TakesText (argumentsBody.parser rules) view text after list := by
  cases h with
  | noArguments => cases hlist
  | @lastArgument _ first rest h =>
    obtain ⟨gap, after', rfl, hgap, htakes⟩ :=
      hargument first rest text after h hview (hcloses.ends false)
    have hbehind := View.chars_drop_lengths hview
    have hcloses' : Closes after' := by
      obtain ⟨bracket, hbracket, hhead⟩ := hcloses
      exact ⟨bracket, hbracket, by rwa [skipSpaces_append hgap] at hhead⟩
    have hnone : Fails (furtherArguments.parser rules) (view.drop (text.length + gap.length)) :=
      furtherArguments_fails (hbehind.symm ▸ hcloses')
    have hparts : Takes (argumentsBody.parser rules) view _
        (.argument (assemble first rest) .noArguments) :=
      seq_takes htakes (optionally_takes_none hnone) rfl rfl
    exact ⟨gap, after', rfl, hgap, hparts⟩
  | @moreArguments text gap gap' others first list rest h hgap hgap' hlist' hothers =>
    have hview' : view.chars = text ++ (gap ++ ',' :: (gap' ++ (others ++ after))) := by
      simpa using hview
    obtain ⟨gap₁, rest₁, hrest₁, hgap₁, htakes⟩ :=
      hargument first rest text _ h hview' (ends_comma hgap _)
    obtain ⟨gap₂, hgap₂, rfl, rfl⟩ := exists_gap_of_append_eq hgap hgap₁ (by decide) hrest₁
    rw [hrest₁] at hview'
    have hbehind := View.chars_drop_lengths hview'
    obtain ⟨gap₀, after', hafter, hgap₀, hfurther⟩ := furtherArguments_takes hnames hbelow
      (by rw [View.size_drop]; omega) hlist' hgap₂ hgap' hothers hbehind hcloses
    have hsame : orNoArguments list = list := by simp [orNoArguments, hlist']
    refine ⟨gap₀, after', hafter, hgap₀, ?_⟩
    have hparts : Takes (argumentsBody.parser rules) view _ (.argument (assemble first rest) list) :=
      seq_takes htakes (optionally_takes hfurther) (by rw [hsame]) rfl
    convert hparts using 1
    simp only [List.length_append, List.length_cons]
    omega

-- The rules take every phrase that the depth leaves room for.
structure TakesWithin (grammar : Grammar) (depth : Nat) : Prop where
  chain : ∀ (view : View) (rule : RuleName) (grouping : Bool) (first : Value)
    (rest : List (Operator × Value)) (text after : List Char), nesting rule view < depth →
    grouping? rule = some grouping → Spells grammar.names grouping (.chain first rest) text →
    view.chars = text ++ after → Ends grouping after →
    TakesText (grammar.plainRules.runWithin depth rule) view text after (assemble first rest)
  arguments : ∀ (view : View) (list : Value) (text after : List Char),
    nesting .arguments view < depth → list.isArgument = true →
    Spells grammar.names false (.arguments list) text → view.chars = text ++ after →
    Closes after →
    TakesText (grammar.plainRules.runWithin depth .arguments) view text after list

theorem nesting_le (rule : RuleName) (view : View) : nesting rule view ≤ 2 * view.size + 1 := by
  cases rule <;> simp only [nesting] <;> omega

theorem TakesWithin.readsBelow {depth : Nat} (h : TakesWithin grammar depth)
    (hroom : 2 * view.size < depth + 1) :
    ReadsBelow grammar.names (grammar.plainRules.runWithin depth) view.size := by
  have hnesting : ∀ rule, ∀ view' : View, view'.size < view.size → nesting rule view' < depth := by
    intro rule view' hlt
    have hle := nesting_le rule view'
    omega
  exact {
    sound := fun rule hrule view' hlt => plainRules_reads grammar hrule (hnesting rule view' hlt)
    chain := fun view' rule grouping first rest text after hlt =>
      h.chain view' rule grouping first rest text after (hnesting rule view' hlt)
    arguments := fun view' list text after hlt =>
      h.arguments view' list text after (hnesting .arguments view' hlt) }

theorem takesWithin (hnames : WordNames grammar.names) (depth : Nat) :
    TakesWithin grammar depth := by
  induction depth with
  | zero => exact ⟨fun _ _ _ _ _ _ _ h => by omega, fun _ _ _ _ h => by omega⟩
  | succ depth ih =>
    constructor
    · intro view rule grouping first rest text after hdepth hrule h hview hends
      have hbody : grammar.plainRules.runWithin (depth + 1) rule =
          (grammar.alternatives rule (numeral grouping)).parser
            (grammar.plainRules.runWithin depth) := by
        rcases grouping?_argument_or_expression hrule with ⟨rfl, rfl⟩ | ⟨rfl, rfl⟩ <;> rfl
      have hroom : 2 * view.size < depth + 1 := by
        rcases grouping?_argument_or_expression hrule with ⟨rfl, _⟩ | ⟨rfl, _⟩ <;> exact hdepth
      rw [hbody]
      exact alternatives_take_chain hnames (ih.readsBelow hroom) hrule h hview hends
    · intro view list text after hdepth hlist h hview hcloses
      have hroom : 2 * view.size + 1 < depth + 1 := hdepth
      refine argumentsBody_takes hnames (ih.readsBelow (by omega)) ?_ hlist h hview hcloses
      intro first rest text after h hview hends
      exact ih.chain view .argument false first rest text after (Nat.lt_of_succ_lt_succ hroom) rfl h
        hview hends

theorem wholeText_takes (hnames : WordNames grammar.names)
    {lead trail : List Char} (h : Spells grammar.names true (.chain first rest) text)
    (hlead : Spaces lead) (htrail : Spaces trail) (hview : view.chars = lead ++ (text ++ trail)) :
    Takes (wholeText.parser (grammar.plainRules.runWithin (grammar.rules.depthFor view))) view
      view.size (.root (assemble first rest)) := by
  have hbehind := View.chars_drop_length hview
  have hdepth : nesting .expression (view.drop lead.length) < grammar.rules.depthFor view :=
    nesting_lt_depthFor grammar .expression (by rw [View.size_drop]; omega)
  obtain ⟨gap, after', rfl, _, hbody⟩ := (takesWithin hnames _).chain _ .expression true first rest
    text trail hdepth rfl h hbehind (ends_nil htrail true)
  have hlast : ((view.drop lead.length).drop (text.length + gap.length)).chars = after' ++ [] := by
    rw [View.chars_drop_lengths hbehind, List.append_nil]
  have hsize : view.size = lead.length + (text.length + gap.length + after'.length) := by
    rw [← View.length_chars, hview]
    simp only [List.length_append]
    omega
  have hparts : Takes ((sequenceKeeping [blanks, call .expression, blanks] 1).parser
      (grammar.plainRules.runWithin (grammar.rules.depthFor view))) view
      (lead.length + (text.length + gap.length + after'.length)) (assemble first rest) :=
    seq_second_takes (blanks_takes hlead hview (h.not_isSpace_head hnames (by simp) _))
      (seq_first_takes hbody (blanks_takes (spaces_append.mp htrail).2 hlast (by simp)))
  rw [← hsize] at hparts
  exact mapValue_takes (complete_takes hparts) rfl rfl

-- A flat expression with spaces around it is parsed to its tree, and nothing of the text is left.
theorem flat_expressions_are_parsed (grammar : Grammar)
    (hvalid : ∀ name ∈ grammar.names, Registry.isValidName name = true)
    (hapart : ∀ name ∈ grammar.names, ∀ c ∈ name.toList.head?, c.isDigit = false)
    (first : Value) (rest : List (Operator × Value)) (lead flat trail : List Char)
    (hflat : Spells grammar.names true (.chain first rest) flat) (hlead : Spaces lead)
    (htrail : Spaces trail) (text name : String) (htext : text.toList = lead ++ (flat ++ trail)) :
    grammar.parse text name = .ok (.taken (.ofText text name) text.toList.length
      (.root (assemble first rest))) := by
  have hnames : WordNames grammar.names := ⟨hvalid, hapart⟩
  have hview : (View.ofText text name).chars = lead ++ (flat ++ trail) := by
    rw [View.ofText, View.chars_whole, Source.chars_of, htext]
  have hsize : (View.ofText text name).size = text.toList.length := by
    rw [← View.length_chars, hview, htext]
  rw [← hsize]
  exact parse_of_plain text name (wholeText_takes hnames hflat hlead htrail hview).2

-- The weakest operator splits the text, `**` is not read as `*`, and `mod` joins where it stands
-- between operands that are called `mod` as well.
theorem flat_expressions_are_parsed_by_strength :
    Grammar.parse ⟨["f", "mod"]⟩ " f()**mod[ ]+mod() mod f() " "" =
      .ok (.taken (.ofText " f()**mod[ ]+mod() mod f() " "") 27 (.root (.binary .add
        (.binary .power (.call "f" .noArguments) (.call "mod" .noArguments))
        (.binary .modulo (.call "mod" .noArguments) (.call "f" .noArguments))))) := by
  have hcall : ∀ (name : String) (bracket : Char × Char) (gap gap' : List Char),
      name ∈ ["f", "mod"] → bracket ∈ brackets → Spaces gap → Spaces gap' →
      Spells ["f", "mod"] true (.operand (.call name .noArguments))
        (name.toList ++ (bracket.1 :: (gap ++ bracket.2 :: gap'))) := by
    intro name bracket gap gap' hname hbracket hgap hgap'
    exact .call hname hbracket spaces_nil hgap .noArguments spaces_nil hgap'
  have hspace : Spaces [' '] := by decide
  have hflat : Spells ["f", "mod"] true (.chain (.call "f" .noArguments)
      [(.power, .call "mod" .noArguments), (.add, .call "mod" .noArguments),
        (.modulo, .call "f" .noArguments)]) "f()**mod[ ]+mod() mod f() ".toList := by
    have hf := hcall "f" ('(', ')') [] [] (by decide) (by decide) spaces_nil spaces_nil
    have hfSpace := hcall "f" ('(', ')') [] [' '] (by decide) (by decide) spaces_nil hspace
    have hmod := hcall "mod" ('(', ')') [] [] (by decide) (by decide) spaces_nil spaces_nil
    have hmod' := hcall "mod" ('[', ']') [' '] [] (by decide) (by decide) hspace spaces_nil
    have hpower : "**" ∈ Operator.power.spellings := by decide
    have hadd : "+" ∈ Operator.add.spellings := by decide
    have hmodulo : "mod" ∈ Operator.modulo.spellings := by decide
    exact .joined hf spaces_nil hpower spaces_nil (.joined hmod' spaces_nil hadd spaces_nil
      (.joined hmod hspace hmodulo hspace (.single hfSpace)))
  have hapart : ∀ name ∈ ["f", "mod"], ∀ c ∈ name.toList.head?, c.isDigit = false := by
    intro name hname c hc
    rcases (by simpa using hname : name = "f" ∨ name = "mod") with rfl | rfl <;> cases hc <;> decide
  have hparse := flat_expressions_are_parsed ⟨["f", "mod"]⟩ (by decide) hapart _ _ [' '] _ []
    hflat hspace spaces_nil " f()**mod[ ]+mod() mod f() " "" (by decide)
  rw [hparse]
  cbv

end Abacus.Grammar
