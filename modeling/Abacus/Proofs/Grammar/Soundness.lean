import Abacus.Proofs.Grammar.Derivation
import Abacus.Proofs.Grammar.Plain

namespace Abacus.Grammar

open Abacus.Pattern Abacus.Parser

variable {rules : RuleName → Parser} {names : List String} {view : View} {rule : RuleName}
  {described : List Char → Value → Prop}

theorem bracketed_reads {inner : Pattern} (bracket : Char × Char)
    (hinner : ∀ view' : View, view'.size < view.size →
      Reads (inner.parser rules) view' described) :
    Reads ((bracketed inner bracket).parser rules) view fun text value =>
      ∃ gap body gap', text = bracket.1 :: (gap ++ (body ++ (gap' ++ [bracket.2]))) ∧ Spaces gap ∧
        described body value ∧ Spaces gap' := by
  refine (seq_second_reads (character_reads bracket.1 view) fun count _ _ hopen =>
    seq_second_reads (blanks_reads _) fun _ _ _ _ =>
      seq_first_reads (hinner _ ?_) fun _ _ _ _ =>
        seq_second_reads (blanks_reads _) fun _ _ _ _ => character_reads bracket.2 _).mono ?_
  · have hlt : (view.drop count).size < view.size := View.size_drop_lt (by simp [hopen.1])
    exact Nat.lt_of_le_of_lt (by rw [View.size_drop]; omega) hlt
  · rintro text value ⟨_, _, _, rfl, ⟨rfl, _⟩, gap, _, _, rfl, ⟨hgap, _⟩, body, _, _, rfl, hbody,
      gap', _, _, rfl, ⟨hgap', _⟩, rfl, _⟩
    exact ⟨gap, body, gap', rfl, hgap, hbody, hgap'⟩

-- What is between the brackets of a call.
def callArguments : Pattern :=
  mapValue (optionally (call .arguments)) fun value => .ok (orNoArguments value)

theorem callArguments_reads
    (harguments : Reads (rules .arguments) view (Derives names .arguments)) :
    Reads (callArguments.parser rules) view fun text value =>
      Derives names .arguments text value ∨ text = [] ∧ value = .noArguments := by
  have hoptional : Reads ((optionally (call .arguments)).parser rules) view _ :=
    optionally_reads harguments
  change Reads (Parser.mapValue _ fun value => .ok (orNoArguments value)) view _
  apply mapValue_reads hoptional
  rintro text value (h | ⟨rfl, rfl⟩)
  · have hsame : orNoArguments value = value := by simp [orNoArguments, h.isArgument]
    exact ⟨value, by rw [hsame], h.isAbsent, .inl h⟩
  · exact ⟨.noArguments, rfl, rfl, .inr ⟨rfl, rfl⟩⟩

theorem application_reads {grouping : Bool} {name : String} (hrule : grouping? rule = some grouping)
    (hname : name ∈ names)
    (harguments : ∀ view' : View, view'.size < view.size →
      Reads (rules .arguments) view' (Derives names .arguments)) :
    Reads ((application name).parser rules) view (Derives names rule) := by
  have hbrackets : ∀ view' : View, view'.size ≤ view.size →
      Reads ((firstOf (brackets.map (bracketed callArguments))).parser rules) view'
        fun text value => ∃ bracket ∈ brackets, ∃ gap body gap',
          text = bracket.1 :: (gap ++ (body ++ (gap' ++ [bracket.2]))) ∧ Spaces gap ∧
            (Derives names .arguments body value ∨ body = [] ∧ value = .noArguments) ∧
            Spaces gap' := by
    intro view' hview'
    apply firstOf_parser_reads
    intro p hp
    obtain ⟨bracket, hbracket, rfl⟩ := List.mem_map.mp hp
    exact (bracketed_reads bracket fun view'' hview'' => callArguments_reads
      (harguments view'' (by omega))).mono fun text value h => ⟨bracket, hbracket, h⟩
  have hdrop : ∀ (v : View) count, (v.drop count).size ≤ v.size := by
    intro v count
    rw [View.size_drop]
    omega
  have hparts : Reads ((sequenceKeeping [blanks, word name, blanks,
      firstOf (brackets.map (bracketed callArguments)), blanks] 3).parser rules) view _ :=
    seq_second_reads (blanks_reads view) fun _ _ _ _ =>
      seq_second_reads (word_reads name _) fun _ _ _ _ =>
        seq_second_reads (blanks_reads _) fun _ _ _ _ =>
          seq_first_reads (hbrackets _ ((hdrop _ _).trans ((hdrop _ _).trans (hdrop _ _))))
            fun _ _ _ _ => blanks_reads _
  change Reads (Parser.mapValue _ fun arguments => .ok (.call name arguments)) view _
  apply mapValue_reads hparts
  rintro text value ⟨gap, _, _, rfl, ⟨hgap, _⟩, _, _, _, rfl, ⟨rfl, _⟩, gap₁, _, _, rfl, ⟨hgap₁, _⟩,
    _, gap₄, _, rfl, ⟨bracket, hbracket, gap₂, body, gap₃, rfl, hgap₂, hbody, hgap₃⟩, ⟨hgap₄, _⟩⟩
  refine ⟨.call name value, rfl, rfl, ?_⟩
  rcases hbody with hbody | ⟨rfl, rfl⟩
  · have h := Derives.call hrule hname hbracket hgap hgap₁ hgap₂ hbody hgap₃ hgap₄
    simpa using h
  · have h := Derives.callOfNone hrule hname hbracket hgap hgap₁
      (spaces_append.mpr ⟨hgap₂, hgap₃⟩) hgap₄
    simpa using h

-- A left side and the operator behind it: the operator is where it stands in the view.
theorem splitShortest_operator_reads (operator : Operator)
    (hrule : ∀ view' : View, view'.size < view.size → Reads (rules rule) view' described) :
    Reads ((splitShortest (call rule) (operatorPattern operator) .first).parser rules) view
      fun text value => ∃ front gap spelling gap',
        text = front ++ (gap ++ (spelling.toList ++ gap')) ∧ front ≠ [] ∧ described front value ∧
          Spaces gap ∧ Spaces gap' ∧ spelling ∈ operator.spellings ∧
          StandsAt spelling (skipSpaces (view.chars.drop front.length)) := by
  have hleft : ∀ cut, 1 ≤ cut → cut < view.size →
      Reads (rules rule) (view.take cut) fun text value =>
        value.isAbsent = false ∧ described text value := by
    intro cut _ hcut
    refine (hrule _ ?_).present
    rw [View.size_take]
    omega
  apply splitShortest_reads hleft (fun _ _ _ => operatorPattern_reads operator _)
  rintro cut value text' value' hfirst hlast ⟨hpresent, hvalue⟩
    ⟨gap, spelling, gap', rfl, hgap, hgap', hmem, hstands, _⟩
  have hlength : (view.chars.take cut).length = cut := by
    rw [List.length_take, View.length_chars]
    omega
  refine ⟨value, rfl, hpresent, _, gap, spelling, gap', rfl, ?_, hvalue, hgap, hgap', hmem, ?_⟩
  · exact List.length_pos_iff.mp (by omega)
  · rwa [hlength, ← View.chars_drop]

theorem StandsAt.head?_ne_star {rest : List Char} (h : StandsAt "*" ("*".toList ++ rest)) :
    rest.head? ≠ some '*' := by
  intro hstar
  obtain ⟨rest', rfl⟩ := List.head?_eq_some_iff.mp hstar
  have hlonger : "**" ∈ longerSpellings "*" := by decide
  exact h.2 "**" hlonger ⟨rest', rfl⟩

theorem binary_reads {grouping : Bool} (operator : Operator)
    (hrule : grouping? rule = some grouping)
    (hreads : ∀ view' : View, view'.size < view.size →
      Reads (rules rule) view' (Derives names rule)) :
    Reads ((binary rule operator).parser rules) view (Derives names rule) := by
  have hparts : Reads ((binary rule operator).parser rules) view fun text value =>
      ∃ front gap spelling gap' back left right,
        text = front ++ (gap ++ (spelling.toList ++ (gap' ++ back))) ∧
          Derives names rule front left ∧ Derives names rule back right ∧ Spaces gap ∧
          Spaces gap' ∧ spelling ∈ operator.spellings ∧
          StandsAt spelling (skipSpaces (view.chars.drop front.length)) ∧
          value = .binary operator left right := by
    refine seq_reads (splitShortest_operator_reads operator hreads)
      (fun count left hcount h => hreads _ (View.size_drop_lt ?_)) ?_
    · obtain ⟨front, gap, spelling, gap', htext, hne, _⟩ := h
      rw [htext]
      simp [hne]
    · rintro text left back right ⟨front, gap, spelling, gap', rfl, _, hleft, hgap, hgap', hmem,
        hstands⟩ hright
      exact ⟨_, rfl, rfl, front, gap, spelling, gap', back, left, right, by simp, hleft, hright,
        hgap, hgap', hmem, hstands, rfl⟩
  apply hparts.within.mono
  rintro text value ⟨⟨rest, hview⟩, front, gap, spelling, gap', back, left, right, rfl, hleft,
    hright, hgap, hgap', hmem, hstands, rfl⟩
  refine .binary hrule hleft hgap hmem ?_ hgap' hright
  rintro rfl
  rw [← hview, List.append_assoc, List.drop_left, List.append_assoc, skipSpaces_append hgap,
    List.append_assoc, skipSpaces_spelling hmem] at hstands
  intro hstar
  refine hstands.head?_ne_star ?_
  rw [List.head?_append, hstar]
  rfl

theorem grouping?_argument_or_expression {grouping : Bool} (h : grouping? rule = some grouping) :
    rule = .expression ∧ grouping = true ∨ rule = .argument ∧ grouping = false := by
  cases rule <;> simp_all [grouping?]

-- All that an expression may be but a number.
def compounds (grammar : Grammar) (rule : RuleName) : List Pattern :=
  Operator.all.map (binary rule) ++ grammar.names.map application ++
    brackets.map (bracketed (call rule))

theorem compounds_read (grammar : Grammar) {grouping : Bool}
    (hrule : grouping? rule = some grouping)
    (hreads : ∀ view' : View, view'.size < view.size →
      Reads (rules rule) view' (Derives grammar.names rule))
    (harguments : ∀ view' : View, view'.size < view.size →
      Reads (rules .arguments) view' (Derives grammar.names .arguments)) :
    ∀ p ∈ grammar.compounds rule, Reads (p.parser rules) view (Derives grammar.names rule) := by
  intro p hp
  simp only [compounds, List.mem_append, List.mem_map] at hp
  rcases hp with (⟨operator, _, rfl⟩ | ⟨name, hname, rfl⟩) | ⟨bracket, hbracket, rfl⟩
  · exact binary_reads operator hrule hreads
  · exact application_reads hrule hname harguments
  · apply (bracketed_reads bracket hreads).mono
    rintro text value ⟨gap, body, gap', rfl, hgap, hbody, hgap'⟩
    exact .group hrule hbracket hgap hbody hgap'

theorem alternatives_reads (grammar : Grammar) {grouping : Bool}
    (hrule : grouping? rule = some grouping)
    (hreads : ∀ view' : View, view'.size < view.size →
      Reads (rules rule) view' (Derives grammar.names rule))
    (harguments : ∀ view' : View, view'.size < view.size →
      Reads (rules .arguments) view' (Derives grammar.names .arguments)) :
    Reads ((grammar.alternatives rule (numeral grouping)).parser rules) view
      (Derives grammar.names rule) := by
  refine firstOf_parser_reads (List.forall_mem_append.mpr
    ⟨grammar.compounds_read hrule hreads harguments, List.forall_mem_singleton.mpr ?_⟩)
  apply (numeral_reads view).mono
  rintro text value ⟨hliteral, x, hx, rfl⟩
  exact .literal hrule hliteral hx

theorem argumentsBody_reads
    (hargument : Reads (rules .argument) view (Derives names .argument))
    (harguments : ∀ view' : View, view'.size < view.size →
      Reads (rules .arguments) view' (Derives names .arguments)) :
    Reads (argumentsBody.parser rules) view (Derives names .arguments) := by
  have hothers : ∀ view' : View, view'.size ≤ view.size →
      Reads ((sequenceKeeping [blanks, comma, blanks, call .arguments] 3).parser rules) view'
        fun text value => ∃ gap gap' others, text = gap ++ (',' :: (gap' ++ others)) ∧
          Spaces gap ∧ Spaces gap' ∧ Derives names .arguments others value := by
    intro view' hview'
    refine (seq_second_reads (blanks_reads view') fun count _ _ _ =>
      seq_second_reads (character_reads ',' _) fun count' _ _ hcomma =>
        seq_second_reads (blanks_reads _) fun _ _ _ _ => harguments _ ?_).mono ?_
    · have hlt : ((view'.drop count).drop count').size < (view'.drop count).size :=
        View.size_drop_lt (by simp [hcomma.1])
      simp only [View.size_drop] at hlt ⊢
      omega
    · rintro text value ⟨gap, _, _, rfl, ⟨hgap, _⟩, _, _, _, rfl, ⟨rfl, _⟩, gap', others, _, rfl,
        ⟨hgap', _⟩, hothers⟩
      exact ⟨gap, gap', others, rfl, hgap, hgap', hothers⟩
  have hoptional : ∀ view' : View, view'.size ≤ view.size →
      Reads ((optionally (sequenceKeeping [blanks, comma, blanks, call .arguments] 3)).parser rules)
        view' _ := fun view' hview' => optionally_reads (hothers view' hview')
  refine seq_reads hargument (fun count _ _ _ => hoptional _ ?_) ?_
  · rw [View.size_drop]
    omega
  · rintro text first text' rest hfirst (⟨gap, gap', others, rfl, hgap, hgap', hothers⟩ | ⟨rfl, rfl⟩)
    · have hsame : orNoArguments rest = rest := by simp [orNoArguments, hothers.isArgument]
      refine ⟨.argument first rest, by rw [hsame], rfl, ?_⟩
      exact .moreArguments hfirst hgap hgap' hothers
    · refine ⟨.argument first .noArguments, rfl, rfl, ?_⟩
      rw [List.append_nil]
      exact .lastArgument hfirst

def ruleNames : List RuleName := [.expression, .argument, .arguments]

-- How deep the calls of a rule nest at most. Lists of arguments begin with an argument on the same
-- view, and every other call is for a smaller one.
def nesting : RuleName → View → Nat
  | .arguments, view => 2 * view.size + 1
  | _, view => 2 * view.size

theorem nesting_lt_depthFor (grammar : Grammar) (rule : RuleName) {view view' : View}
    (h : view'.size ≤ view.size) : nesting rule view' < grammar.rules.depthFor view := by
  have hdepth : grammar.rules.depthFor view = 3 * (view.size + 1) := rfl
  cases rule <;> simp only [nesting] <;> omega

theorem nesting_lt_of_size_lt (rule : RuleName) {view view' : View} (h : view'.size < view.size) :
    nesting rule view' < 2 * view.size := by
  cases rule <;> simp only [nesting] <;> omega

theorem plainRules_reads (grammar : Grammar) {depth : Nat} (hrule : rule ∈ ruleNames)
    (hdepth : nesting rule view < depth) :
    Reads (grammar.plainRules.runWithin depth rule) view (Derives grammar.names rule) := by
  induction depth generalizing rule view with
  | zero => omega
  | succ depth ih =>
    -- A smaller view leaves room for one more call, whichever rule is called.
    have hroom : 2 * view.size ≤ depth := by
      cases rule <;> simp only [nesting] at hdepth <;> omega
    have hsmaller : ∀ rule' ∈ ruleNames, ∀ view' : View, view'.size < view.size →
        Reads (grammar.plainRules.runWithin depth rule') view' (Derives grammar.names rule') :=
      fun rule' hrule' view' hlt =>
        ih hrule' (Nat.lt_of_lt_of_le (nesting_lt_of_size_lt rule' hlt) hroom)
    simp only [ruleNames, List.mem_cons, List.not_mem_nil, or_false] at hrule
    rcases hrule with rfl | rfl | rfl
    · exact alternatives_reads grammar rfl (hsmaller _ (by decide)) (hsmaller _ (by decide))
    · exact alternatives_reads grammar rfl (hsmaller _ (by decide)) (hsmaller _ (by decide))
    · have hargument : nesting .argument view < depth := Nat.lt_of_succ_lt_succ hdepth
      exact argumentsBody_reads (ih (by decide) hargument) (hsmaller _ (by decide))

end Abacus.Grammar
