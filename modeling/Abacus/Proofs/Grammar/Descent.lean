import Abacus.Proofs.Grammar.Whole
import Abacus.Proofs.Parsing.Descent

namespace Abacus

namespace Pattern

theorem guarded_firstOf {ps : List Pattern} (h : ∀ p ∈ ps, p.guarded = true) :
    (firstOf ps).guarded = true :=
  firstOf_induction (fun _ => rfl) (fun _ _ hp hq => Bool.and_eq_true_iff.mpr ⟨hp, hq⟩) h

theorem guarded_word (text : String) : (word text).guarded = true := by
  change (wordChars text.toList).guarded = true
  cases text.toList with
  | nil => rfl
  | cons c chars => rfl

end Pattern

namespace Grammar

open Abacus.Pattern Abacus.Parser

variable {grammar : Grammar} {rule : RuleName} {view : View}

-- Behind its name, a call has an opening bracket in front of its arguments.
theorem guarded_application (name : String) : (application name).guarded = true := by
  change ((word name).guarded && ((word name).advances || true)) = true
  rw [guarded_word, Bool.or_true]
  rfl

-- A left side is in front of a cut, and the right side is behind it.
theorem guarded_alternatives (grammar : Grammar) (rule : RuleName) (grouping : Bool) :
    (grammar.alternatives rule (numeral grouping)).guarded = true := by
  apply guarded_firstOf
  intro p hp
  simp only [List.mem_append, List.mem_map, List.mem_singleton] at hp
  rcases hp with ((⟨operator, _, rfl⟩ | ⟨name, _, rfl⟩) | ⟨bracket, _, rfl⟩) | rfl
  · rfl
  · exact guarded_application name
  · rfl
  · cases grouping <;> rfl

-- The calls that a rule makes on its own view, itself included. The latest one comes first.
def ownCalls : RuleName → View → List Attempt
  | .arguments, view => [.ofCall .argument view, .ofCall .arguments view]
  | rule, view => [.ofCall rule view]

-- A list of arguments begins with an argument on its own view, and a comma is in front of all that
-- is called later.
theorem attempts_of_arguments {depth : Nat} {before after : ParseState} {result : Match}
    (hgood : before.Disciplined)
    (hrun : (grammar.rules.watched.runWithin depth .arguments view).run before =
      .ok (result, after)) :
    ∃ made, after.attempts = made ++ (ownCalls .arguments view ++ before.attempts) ∧
      ∀ attempt ∈ made, attempt.Below true view := by
  have hwatched := Rules.keepMatches_watched grammar.keepMatches_rules
  cases depth with
  | zero => cases hrun
  | succ depth =>
    let logged := { before with attempts := .ofCall .arguments view :: before.attempts }
    let others := optionally (sequenceKeeping [blanks, comma, blanks, call .arguments] 3)
    have hdisciplined := Rules.isDisciplined_runWithin hwatched depth
    have hothers : ∀ rest, view.Leaves rest → ParseM.Logs (Attempt.Below true view)
        (others.parser (grammar.rules.watched.runWithin depth) rest) := fun rest hrest =>
      (others.logs_parser_below hdisciplined (Rules.logs_runWithin_below hwatched depth) rfl
        rest).mono fun attempt h => h.of_leaves hrest
    have hlogged : logged.Disciplined := hgood
    obtain ⟨first, between, later, hfirst, hlater, hbelow⟩ :=
      Parser.attempts_of_seq (hdisciplined .argument) hothers hlogged hrun
    have hbody : grammar.rules.body? .argument = some grammar.argumentBody := rfl
    obtain ⟨made, hmade, hbelow'⟩ := Rules.attempts_of_guarded grammar.keepMatches_rules hbody
      (grammar.guarded_alternatives .argument false) hlogged hfirst
    refine ⟨later ++ made, ?_, fun attempt h => ?_⟩
    · rw [hlater, hmade, List.append_assoc]
      rfl
    · rcases List.mem_append.mp h with h | h
      · exact hbelow attempt h
      · exact hbelow' attempt h

theorem attempts_of_rule {depth : Nat} {before after : ParseState} {result : Match}
    (hrule : rule ∈ ruleNames) (hgood : before.Disciplined)
    (hrun : (grammar.rules.watched.runWithin depth rule view).run before = .ok (result, after)) :
    ∃ made, after.attempts = made ++ (ownCalls rule view ++ before.attempts) ∧
      ∀ attempt ∈ made, attempt.Below true view := by
  simp only [ruleNames, List.mem_cons, List.not_mem_nil, or_false] at hrule
  rcases hrule with rfl | rfl | rfl
  · have hbody : grammar.rules.body? .expression = some grammar.expressionBody := rfl
    exact Rules.attempts_of_guarded grammar.keepMatches_rules hbody
      (grammar.guarded_alternatives .expression true) hgood hrun
  · have hbody : grammar.rules.body? .argument = some grammar.argumentBody := rfl
    exact Rules.attempts_of_guarded grammar.keepMatches_rules hbody
      (grammar.guarded_alternatives .argument false) hgood hrun
  · exact attempts_of_arguments hgood hrun

-- A pattern that comes to a match within every greater depth comes to the same one.
theorem exists_plain_result {p : Pattern} (hp : p.remembered = []) {bound : Nat}
    {described : List Char → Value → Prop} (h : ∀ depth, bound < depth →
      Reads (p.parser (grammar.plainRules.runWithin depth)) view described) :
    ∃ result, ∀ depth, bound < depth →
      p.parser (grammar.plainRules.runWithin depth) view = pure result := by
  have hyields : ∀ depth result, p.parser (grammar.plainRules.runWithin depth) view = pure result →
      grammar.rules.plain.Yields p.plain view result := by
    intro depth result hplain
    refine ⟨depth, {}, {}, ?_⟩
    rw [plain_rules, plain_eq_self hp, hplain]
    rfl
  obtain ⟨result, hresult, -⟩ := (h (bound + 1) (Nat.lt_succ_self bound)).exists_pure
  refine ⟨result, fun depth hdepth => ?_⟩
  obtain ⟨other, hother, -⟩ := (h depth hdepth).exists_pure
  rw [hother, (hyields depth other hother).unique (hyields _ result hresult)]

-- Every call that a rule makes is for a strictly smaller part of its view, but that a list of
-- arguments first calls an argument on its own view. So a rule comes to a match, the same one within
-- every depth that is large enough for its view, and twice the length of a text is large enough for
-- a parse.
theorem calls_descend (grammar : Grammar) :
    (∀ rule ∈ ruleNames, ∀ (view : View) (depth : Nat) (state state' : ParseState) (result : Match),
      state.Disciplined →
      (grammar.rules.watched.runWithin depth rule view).run state = .ok (result, state') →
      ∃ others, state'.attempts = others ++ (ownCalls rule view ++ state.attempts) ∧
        ∀ attempt ∈ others, view.pos ≤ attempt.pos ∧ attempt.stop ≤ view.stop ∧
          attempt.stop - attempt.pos < view.size) ∧
      (∀ rule ∈ ruleNames, ∀ view : View, ∃ result, ∀ (depth : Nat) (state : ParseState),
        nesting rule view < depth → grammar.rules.Truthful (call rule) state.memo →
        (∃ state', (grammar.rules.runWithin depth rule view).run state = .ok (result, state')) ∧
        ∃ state', (grammar.rules.watched.runWithin depth rule view).run state =
          .ok (result, state')) ∧
      ∀ text name : String, ∃ result, grammar.parse text name = .ok result ∧
        ∀ depth, 2 * text.length < depth → ∃ state,
          (wholeText.parser (grammar.rules.runWithin depth) (.ofText text name)).run {} =
            .ok (result, state) := by
  refine ⟨?_, ?_, ?_⟩
  · intro rule hrule view depth state state' result hgood hrun
    obtain ⟨others, hothers, hbelow⟩ := attempts_of_rule hrule hgood hrun
    exact ⟨others, hothers, fun attempt h =>
      ⟨(hbelow attempt h).first, (hbelow attempt h).last, (hbelow attempt h).smaller rfl⟩⟩
  · intro rule hrule view
    obtain ⟨result, hresult⟩ := exists_plain_result (p := call rule) rfl fun depth hdepth =>
      plainRules_reads grammar hrule hdepth
    refine ⟨result, fun depth state hdepth htruthful => ⟨?_, ?_⟩⟩
    · obtain ⟨state', hrun, -⟩ := runWithin_of_plain (p := call rule) rfl (hresult depth hdepth)
        htruthful
      exact ⟨state', hrun⟩
    · have hplain : ((call rule).plain.parser (grammar.rules.plain.runWithin depth) view).run {} =
          .ok (result, {}) := by
        rw [plain_rules]
        exact congrFun (hresult depth hdepth) {}
      exact Rules.run_watched (grammar.namesApart_rules rfl) hplain htruthful
  · intro text name
    have hsize : (View.ofText text name).size = text.length := by
      rw [← View.length_chars, View.ofText, View.chars_whole, Source.chars_of]
      rfl
    obtain ⟨result, hresult⟩ := exists_plain_result built_wholeText.remembered
      fun depth hdepth => grammar.plain_wholeText_readsWithin hdepth
    rw [hsize] at hresult
    have htruthful : grammar.rules.Truthful wholeText ({} : ParseState).memo :=
      grammar.rules.truthful_empty wholeText
    refine ⟨result, parse_of_plain text name (hresult _ ?_), fun depth hdepth => ?_⟩
    · have hdepth : grammar.rules.depthFor (.ofText text name) = 3 * (text.length + 1) := by
        rw [← hsize]
        rfl
      change 2 * text.length < grammar.rules.depthFor (.ofText text name)
      omega
    · obtain ⟨state, hrun, -⟩ := runWithin_of_plain built_wholeText.remembered
        (hresult depth hdepth) htruthful
      exact ⟨state, hrun⟩

-- The first argument is called on the view of the list, and all else on less of it.
theorem calls_descend_in_arguments :
    ∃ result state others,
      ((Grammar.rules ⟨["f"]⟩).watched.runWithin 8 .arguments (.ofText "1,2" "")).run {} =
        .ok (result, state) ∧
      state.attempts = others ++ [⟨"arg_expr", 0, 3⟩, ⟨"arg_list", 0, 3⟩] ∧
      ∀ attempt ∈ others, attempt.stop - attempt.pos < 3 := by
  obtain ⟨hdescend, hends, -⟩ := calls_descend ⟨["f"]⟩
  obtain ⟨result, hresult⟩ := hends .arguments (by decide) (.ofText "1,2" "")
  obtain ⟨-, state, hrun⟩ := hresult 8 {} (by decide) (Rules.truthful_empty _ _)
  obtain ⟨others, hothers, hbelow⟩ := hdescend .arguments (by decide) (.ofText "1,2" "") 8 {} state
    result (ParseState.disciplined_of_empty rfl) hrun
  exact ⟨result, state, others, hrun, hothers, fun attempt h => (hbelow attempt h).2.2⟩

end Grammar

end Abacus
