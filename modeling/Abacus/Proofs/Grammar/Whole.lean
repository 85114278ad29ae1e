import Abacus.Proofs.Grammar.Soundness

namespace Abacus

namespace Grammar

open Abacus.Pattern Abacus.Parser

variable {names : List String} {view : View} {grammar : Grammar}

-- A run from a truthful table comes to what is found when nothing is remembered.
theorem runWithin_of_plain {p : Pattern} (hp : p.remembered = []) {depth : Nat} {result : Match}
    (hplain : p.parser (grammar.plainRules.runWithin depth) view = pure result)
    {state : ParseState} (htruthful : grammar.rules.Truthful p state.memo) :
    ∃ state', (p.parser (grammar.rules.runWithin depth) view).run state = .ok (result, state') ∧
      grammar.rules.Truthful p state'.memo := by
  have hrun : (p.plain.parser (grammar.rules.plain.runWithin depth) view).run {} =
      .ok (result, {}) := by
    rw [plain_rules, plain_eq_self hp, hplain]
    rfl
  exact Rules.refines_pattern (grammar.namesApart_rules hp) _ view result {} {} hrun state htruthful

theorem run_of_plain {p : Pattern} (hp : p.remembered = []) {result : Match}
    (hplain : p.parser (grammar.plainRules.runWithin (grammar.rules.depthFor view)) view =
      pure result) {state : ParseState} (htruthful : grammar.rules.Truthful p state.memo) :
    ∃ state', (grammar.rules.run p view).run state = .ok (result, state') ∧
      grammar.rules.Truthful p state'.memo := runWithin_of_plain hp hplain htruthful

theorem wholeText_reads {rules : RuleName → Parser}
    (hreads : ∀ view' : View, view'.size ≤ view.size →
      Reads (rules .expression) view' (Derives names .expression)) :
    Reads (wholeText.parser rules) view fun text value =>
      text = view.chars ∧ ∃ lead body trail tree, text = lead ++ (body ++ trail) ∧ Spaces lead ∧
        Spaces trail ∧ Derives names .expression body tree ∧ value = .root tree := by
  have hparts : Reads ((complete (sequenceKeeping [blanks, call .expression, blanks] 1)).parser
      rules) view _ :=
    complete_reads (seq_second_reads (blanks_reads view) fun count _ _ _ =>
      seq_first_reads (hreads _ (by rw [View.size_drop]; omega)) fun _ _ _ _ => blanks_reads _)
  change Reads (Parser.mapValue _ fun tree => .ok (.root tree)) view _
  apply mapValue_reads hparts
  rintro text tree ⟨hall, lead, _, _, rfl, ⟨hlead, _⟩, body, trail, _, rfl, hbody, ⟨htrail, _⟩⟩
  exact ⟨.root tree, rfl, rfl, hall, lead, body, trail, tree, rfl, hlead, htrail, hbody, rfl⟩

theorem plain_wholeText_readsWithin (grammar : Grammar) {view : View} {depth : Nat}
    (hdepth : 2 * view.size < depth) :
    Reads (wholeText.parser (grammar.plainRules.runWithin depth)) view
      fun text value => text = view.chars ∧ ∃ lead body trail tree,
        text = lead ++ (body ++ trail) ∧ Spaces lead ∧ Spaces trail ∧
          Derives grammar.names .expression body tree ∧ value = .root tree := by
  refine wholeText_reads fun view' hview' => plainRules_reads grammar (by decide) ?_
  simp only [nesting]
  omega

theorem plain_wholeText_reads (grammar : Grammar) (view : View) :
    Reads (wholeText.parser (grammar.plainRules.runWithin (grammar.rules.depthFor view))) view
      fun text value => text = view.chars ∧ ∃ lead body trail tree,
        text = lead ++ (body ++ trail) ∧ Spaces lead ∧ Spaces trail ∧
          Derives grammar.names .expression body tree ∧ value = .root tree :=
  grammar.plain_wholeText_readsWithin (nesting_lt_depthFor grammar .expression (Nat.le_refl _))

-- A parse comes to what is found when nothing is remembered, and it does come to something.
theorem parse_of_plain {result : Match} (text name : String)
    (hplain : wholeText.parser (grammar.plainRules.runWithin
      (grammar.rules.depthFor (.whole (.of name text)))) (.whole (.of name text)) = pure result) :
    grammar.parse text name = .ok result := by
  have htruthful : grammar.rules.Truthful wholeText ({} : ParseState).memo :=
    grammar.rules.truthful_empty wholeText
  obtain ⟨state', hrun, -⟩ := run_of_plain rfl hplain htruthful
  rw [parse, parseSource, hrun]
  rfl

-- However deep calls may nest, what is found when nothing is remembered is found from every truthful
-- table too, and the table stays truthful. A parse of the grammar begins with an empty table.
theorem remembering_changes_nothing :
    (∀ (rules : Rules) (p : Pattern), rules.NamesApart p →
      ∀ (depth : Nat) (view : View) (result : Match) (before after state : ParseState),
        (p.plain.parser (rules.plain.runWithin depth) view).run before = .ok (result, after) →
        rules.Truthful p state.memo →
        ∃ state', (p.parser (rules.runWithin depth) view).run state = .ok (result, state') ∧
          rules.Truthful p state'.memo) ∧
      ∀ (grammar : Grammar) (text name : String),
        grammar.parse text name =
          ((grammar.plainRules.run wholeText (.ofText text name)).run {}).map Prod.fst := by
  constructor
  · intro rules p hapart depth view result before after state hrun htruthful
    exact Rules.refines_pattern hapart depth view result before after hrun state htruthful
  · intro grammar text name
    obtain ⟨result, hplain, -⟩ :=
      (plain_wholeText_reads grammar (.whole (.of name text))).exists_pure
    rw [parse_of_plain text name hplain]
    change _ = ((wholeText.parser (grammar.plainRules.runWithin
      (grammar.rules.depthFor (.whole (.of name text)))) (.whole (.of name text))).run {}).map _
    rw [hplain]
    rfl

-- The first alternative reads `a` before it fails, and the second one finds it in the table.
theorem remembering_changes_nothing_behind_an_alternative :
    ∃ state', ((alt (seq (remember "a" (character 'a')) (character 'b') .pairing)
        (remember "a" (character 'a'))).parser
        (Rules.runWithin ⟨never .endOfInput, never .endOfInput, never .endOfInput, []⟩ 1)
        (.ofText "a" "")).run {} = .ok (.taken (.ofText "a" "") 1 (.str "a"), state') := by
  have hapart : Rules.NamesApart ⟨never .endOfInput, never .endOfInput, never .endOfInput, []⟩
      (alt (seq (remember "a" (character 'a')) (character 'b') .pairing)
        (remember "a" (character 'a'))) := by
    have hremembers : ∀ name q, Rules.Remembers
        ⟨never .endOfInput, never .endOfInput, never .endOfInput, []⟩
        (alt (seq (remember "a" (character 'a')) (character 'b') .pairing)
          (remember "a" (character 'a'))) name q → q = character 'a' := by
      intro name q h
      rcases h with h | ⟨rule, body, hbody, h⟩
      · simp only [remembered, character, List.append_nil, List.cons_append, List.nil_append,
          List.mem_cons, Prod.mk.injEq, List.not_mem_nil, or_false, or_self] at h
        exact h.2
      · cases rule <;> cases hbody <;> cases h
    intro name q q' h h'
    rw [hremembers name q h, hremembers name q' h']
  obtain ⟨state', hrun, -⟩ := remembering_changes_nothing.1 _ _ hapart 1 (.ofText "a" "")
    (.taken (.ofText "a" "") 1 (.str "a")) {} {} {} rfl (Rules.truthful_empty _ _)
  exact ⟨state', hrun⟩

-- Every rule comes to a match on every view. A success takes a text that the rule derives for its
-- payload, and a success on a whole text accounts for all of it.
theorem successes_are_derived (grammar : Grammar)
    (hnames : ∀ name ∈ grammar.names, Registry.isValidName name = true) :
    (∀ rule ∈ ruleNames, ∀ (view : View) (state : ParseState),
      grammar.rules.Truthful (call rule) state.memo →
      ∃ result state', (grammar.rules.run (call rule) view).run state = .ok (result, state') ∧
        grammar.rules.Truthful (call rule) state'.memo ∧
        (result.failed = false → ∃ text, view.chars = text ++ result.rest.chars ∧
          result.rest = view.drop text.length ∧
          Derives grammar.names rule text result.value)) ∧
      ∀ text name : String, ∃ result, grammar.parse text name = .ok result ∧
        (result.failed = false → ∃ lead body trail tree, result.value = .root tree ∧
          text.toList = lead ++ (body ++ trail) ∧ Spaces lead ∧ Spaces trail ∧
          Derives grammar.names .expression body tree ∧
          bracketsMatch [] text.toList = true) := by
  constructor
  · intro rule hrule view state htruthful
    have hreads : Reads (grammar.plainRules.runWithin (grammar.rules.depthFor view) rule) view
        (Derives grammar.names rule) :=
      plainRules_reads grammar hrule (nesting_lt_depthFor grammar rule (Nat.le_refl _))
    obtain ⟨result, hplain, hresult⟩ := hreads.exists_pure
    obtain ⟨state', hrun, htruthful'⟩ := run_of_plain (p := call rule) rfl hplain htruthful
    exact ⟨result, state', hrun, htruthful', hresult⟩
  · intro text name
    obtain ⟨result, hplain, hresult⟩ :=
      (plain_wholeText_reads grammar (.whole (.of name text))).exists_pure
    refine ⟨result, parse_of_plain text name hplain, fun hok => ?_⟩
    obtain ⟨taken, -, -, hall, lead, body, trail, tree, htaken, hlead, htrail, hbody, hvalue⟩ :=
      hresult hok
    have htext : text.toList = lead ++ (body ++ trail) := by
      rw [← htaken, hall, View.chars_whole, Source.chars_of]
    refine ⟨lead, body, trail, tree, hvalue, htext, hlead, htrail, hbody, ?_⟩
    have hkeeps : KeepsDue text.toList := by
      rw [htext]
      exact keepsDue_append hlead.keepsDue (keepsDue_append (hbody.keepsDue hnames)
        htrail.keepsDue)
    have hmatch := hkeeps [] []
    rwa [List.append_nil] at hmatch

theorem successes_are_derived_for_a_call :
    ∃ result lead body trail tree, Grammar.parse ⟨["mod"]⟩ " mod[ ]mod{mod()}" "" = .ok result ∧
      result.value = .root tree ∧ " mod[ ]mod{mod()}".toList = lead ++ (body ++ trail) ∧
      Spaces lead ∧ Spaces trail ∧ Derives ["mod"] .expression body tree ∧
      bracketsMatch [] " mod[ ]mod{mod()}".toList = true := by
  have hnames : ∀ name ∈ ["mod"], Registry.isValidName name = true := by decide
  obtain ⟨result, hparse, hresult⟩ :=
    (successes_are_derived ⟨["mod"]⟩ hnames).2 " mod[ ]mod{mod()}" ""
  have hok : result.failed = false := by
    have hfailed : (Grammar.parse ⟨["mod"]⟩ " mod[ ]mod{mod()}" "").map Match.failed = .ok false := by
      decide +kernel
    rw [hparse] at hfailed
    exact Except.ok.inj hfailed
  obtain ⟨lead, body, trail, tree, hderived⟩ := hresult hok
  exact ⟨result, lead, body, trail, tree, hparse, hderived⟩

end Grammar

end Abacus
