import Abacus.Calculator
import Abacus.Proofs.Function.Registry
import Abacus.Proofs.Grammar.Calls
import Abacus.Proofs.Grammar.Safety

namespace Abacus

namespace Parser

variable {p q q' : Parser} {view : View}

theorem alt_congr_right (h : q view = q' view) : alt p q view = alt p q' view := by
  simp only [alt, h]

theorem alt_of_fails (h : p.Fails view) : alt p q view = q view := by
  obtain ⟨result, hf, hp⟩ := h
  simp [alt, hp, hf]

end Parser

namespace Grammar

open Abacus.Pattern Abacus.Parser

variable {rules : RuleName → Parser} {view : View} {text : List Char} {name name' : String}
  {names names' : List String}

theorem firstOf_parser_cons (p : Pattern) {ps : List Pattern} (h : ps ≠ []) :
    (firstOf (p :: ps)).parser rules view =
      Parser.alt (p.parser rules) ((firstOf ps).parser rules) view := by
  cases ps with
  | nil => exact absurd rfl h
  | cons q qs => rfl

theorem firstOf_parser_congr (front : List Pattern) {ps qs : List Pattern} (hps : ps ≠ [])
    (hqs : qs ≠ []) (h : (firstOf ps).parser rules view = (firstOf qs).parser rules view) :
    (firstOf (front ++ ps)).parser rules view = (firstOf (front ++ qs)).parser rules view := by
  induction front with
  | nil => exact h
  | cons p front ih =>
    rw [List.cons_append, List.cons_append, firstOf_parser_cons p (by simp [hps]),
      firstOf_parser_cons p (by simp [hqs])]
    exact alt_congr_right ih

-- Alternatives that fail may be left out, as long as there is one behind them.
theorem firstOf_parser_filter {α : Type} {items : List α} {f : α → Pattern} {tail : List Pattern}
    (htail : tail ≠ []) (live : α → Prop) [DecidablePred live]
    (h : ∀ item ∈ items, ¬live item → Fails ((f item).parser rules) view) :
    (firstOf (items.map f ++ tail)).parser rules view =
      (firstOf ((items.filter live).map f ++ tail)).parser rules view := by
  induction items with
  | nil => rfl
  | cons item items ih =>
    have hrest := ih fun other hother => h other (List.mem_cons_of_mem _ hother)
    rw [List.map_cons, List.cons_append, firstOf_parser_cons _ (by simp [htail])]
    -- A live alternative stays in front. One that fails hands the same view and state on.
    by_cases hlive : live item
    · rw [List.filter_cons_of_pos (by simpa using hlive), List.map_cons, List.cons_append,
        firstOf_parser_cons _ (by simp [htail])]
      exact alt_congr_right hrest
    · rw [List.filter_cons_of_neg (by simpa using hlive),
        alt_of_fails (h item List.mem_cons_self hlive)]
      exact hrest

theorem CalledAt.unique (hname : Registry.isValidName name = true)
    (hname' : Registry.isValidName name' = true) (h : CalledAt name text)
    (h' : CalledAt name' text) : name = name' := by
  obtain ⟨gap, bracket, back, hbracket, hgap, htext⟩ := h
  obtain ⟨gap', bracket', back', hbracket', hgap', htext'⟩ := h'
  exact name_unique hname hname' hbracket hbracket' hgap hgap' (htext.symm.trans htext')

open Classical in
-- At one place there is at most one name to call, so there is no order left.
theorem filter_calledAt_eq (hperm : names.Perm names')
    (hvalid : ∀ name ∈ names, Registry.isValidName name = true) (text : List Char) :
    names.filter (CalledAt · text) = names'.filter (CalledAt · text) := by
  have hfiltered := hperm.filter (CalledAt · text)
  have hunique : ∀ name ∈ names.filter (CalledAt · text),
      ∀ name' ∈ names'.filter (CalledAt · text), name = name' := by
    intro name hname name' hname'
    have hmem := hperm.mem_iff.mpr (List.mem_filter.mp hname').1
    obtain ⟨hmem', hcalled⟩ := List.mem_filter.mp hname
    exact CalledAt.unique (hvalid name hmem') (hvalid name' hmem) (by simpa using hcalled)
      (by simpa using (List.mem_filter.mp hname').2)
  have hall : ∀ names : List String, names.Pairwise fun _ _ => True :=
    fun _ => List.pairwise_of_forall fun _ _ => trivial
  exact hfiltered.eq_of_pairwise
    (fun name name' hname hname' _ _ => hunique name hname name' hname') (hall _) (hall _)

open Classical in
-- The calls of a grammar come down to the one call that stands there, whatever the rules are.
theorem parser_alternatives_eq {grammar grammar' : Grammar}
    (hperm : grammar.names.Perm grammar'.names)
    (hvalid : ∀ name ∈ grammar.names, Registry.isValidName name = true)
    (rules : RuleName → Parser) (rule : RuleName) (number : Pattern) :
    (grammar.alternatives rule number).parser rules =
      (grammar'.alternatives rule number).parser rules := by
  funext view
  have hcalled : ∀ names : List String,
      (firstOf (names.map application ++ (brackets.map (bracketed (call rule)) ++ [number]))).parser
          rules view =
        (firstOf ((names.filter (CalledAt · (skipSpaces view.chars))).map application ++
          (brackets.map (bracketed (call rule)) ++ [number]))).parser rules view :=
    fun names => firstOf_parser_filter (by simp) (CalledAt · (skipSpaces view.chars))
      fun name _ hname => application_fails_of_not_calledAt hname
  have hnames : (firstOf (grammar.names.map application ++
        (brackets.map (bracketed (call rule)) ++ [number]))).parser rules view =
      (firstOf (grammar'.names.map application ++
        (brackets.map (bracketed (call rule)) ++ [number]))).parser rules view := by
    rw [hcalled grammar.names, hcalled grammar'.names, filter_calledAt_eq hperm hvalid]
  -- The operators in front of the calls are the same for both.
  simp only [alternatives, List.append_assoc]
  exact firstOf_parser_congr _ (by simp) (by simp) hnames

theorem runWithin_eq {grammar grammar' : Grammar} (hperm : grammar.names.Perm grammar'.names)
    (hvalid : ∀ name ∈ grammar.names, Registry.isValidName name = true) (depth : Nat) :
    grammar.rules.runWithin depth = grammar'.rules.runWithin depth := by
  induction depth with
  | zero => rfl
  | succ depth ih =>
    have halternatives := parser_alternatives_eq hperm hvalid (grammar'.rules.runWithin depth)
    funext rule view
    simp only [Rules.runWithin, ih]
    cases rule with
    | expression =>
      change Parser.remember "expr" ((grammar.alternatives _ _).parser _) view =
        Parser.remember "expr" ((grammar'.alternatives _ _).parser _) view
      rw [halternatives]
    | argument =>
      change Parser.remember "arg_expr" ((grammar.alternatives _ _).parser _) view =
        Parser.remember "arg_expr" ((grammar'.alternatives _ _).parser _) view
      rw [halternatives]
    | arguments => rfl
    | named name => rfl

theorem parseSource_eq {grammar grammar' : Grammar} (hperm : grammar.names.Perm grammar'.names)
    (hvalid : ∀ name ∈ grammar.names, Registry.isValidName name = true) (source : Source) :
    grammar.parseSource source = grammar'.parseSource source := by
  have hdepth : grammar.rules.depthFor (.whole source) = grammar'.rules.depthFor (.whole source) :=
    rfl
  rw [parseSource, parseSource, Rules.run, Rules.run, hdepth, runWithin_eq hperm hvalid]

-- A call that is read stands where it is read.
theorem calledAt_of_succeeds {result : Match} {state state' : ParseState}
    (hrun : ((application name).parser rules view).run state = .ok (result, state'))
    (hok : result.failed = false) : CalledAt name (skipSpaces view.chars) := by
  by_contra hnot
  have hfails : Fails ((application name).parser rules) view :=
    application_fails_of_not_calledAt hnot
  obtain ⟨result', hf, hresult'⟩ := hfails
  rw [hresult'] at hrun
  cases hrun
  rw [hok] at hf
  cases hf

-- Registries that hold the same names have grammars that parse every text to the same match, in
-- whatever order the names were registered. At one place, at most one call of a grammar succeeds.
theorem registration_order_does_not_matter {σ : Type} :
    (∀ registry registry' : Registry σ, registry.Registered → registry'.Registered →
      (∀ name, name ∈ registry.names ↔ name ∈ registry'.names) →
      ∀ text source : String, ∃ result, registry.grammar.1.parse text source = .ok result ∧
        registry'.grammar.1.parse text source = .ok result) ∧
      ∀ registry : Registry σ, registry.Registered →
        ∀ (rules : RuleName → Parser) (view : View), registry.names.Pairwise fun name name' =>
          ∀ (result result' : Match) (before before' after after' : ParseState),
            ((application name).parser rules view).run before = .ok (result, after) →
            ((application name').parser rules view).run before' = .ok (result', after') →
            result.failed = true ∨ result'.failed = true := by
  constructor
  · intro registry registry' hregistered hregistered' hsame text source
    have hperm : registry.grammar.1.names.Perm registry'.grammar.1.names :=
      (List.perm_ext_iff_of_nodup hregistered.nodup hregistered'.nodup).mpr hsame
    obtain ⟨result, hresult⟩ := registry.grammar.1.exists_parse text source
    refine ⟨result, hresult, ?_⟩
    rw [← hresult, parse, parse, parseSource_eq hperm hregistered.isValidName]
  · intro registry hregistered rules view
    refine hregistered.nodup.imp_of_mem ?_
    intro name name' hmem hmem' hne result result' before before' after after' hrun hrun'
    by_contra hok
    simp only [not_or, Bool.not_eq_true] at hok
    exact hne (CalledAt.unique (hregistered.isValidName name hmem)
      (hregistered.isValidName name' hmem') (calledAt_of_succeeds hrun hok.1)
      (calledAt_of_succeeds hrun' hok.2))

-- The built-in functions, `log`, `log2` and `log10` among them, might be registered the other way
-- round.
theorem registration_order_does_not_matter_for_builtins :
    ∃ result, Grammar.parse Registry.standard.grammar.1 "log10(log(2, 8)) + log2(" "" = .ok result ∧
      Grammar.parse (Registry.grammar ⟨(Builtin.all Dice.draw).reverse, false⟩).1
        "log10(log(2, 8)) + log2(" "" = .ok result := by
  have hreversed : Registry.Registered ⟨(Builtin.all Dice.draw).reverse, false⟩ :=
    Registry.Registered.empty.registerAll (Builtin.all Dice.draw).reverse rfl
  have hsame : ∀ name, name ∈ Registry.standard.names ↔
      name ∈ (Registry.mk (Builtin.all Dice.draw).reverse false).names := by
    simp [Registry.names, Registry.standard]
  exact registration_order_does_not_matter.1 _ _ Registry.registered_standard hreversed hsame _ _

end Grammar

end Abacus
