import Abacus.Proofs.Grammar.Whole
import Abacus.Proofs.Parsing.Locality

namespace Abacus.Grammar

open Abacus.ParseM Abacus.Pattern Abacus.Parser

-- The parsers of the grammar: its rules, and its two kinds of numerals.
def parsers : List Pattern := ruleNames.map call ++ [numeral true, numeral false]

theorem offsetFree_parsers {p : Pattern} (hp : p ∈ parsers) : p.OffsetFree := by
  apply offsetFree_of_not_changesMatches
  simp only [parsers, List.mem_append, List.mem_map, List.mem_cons, List.not_mem_nil,
    or_false] at hp
  rcases hp with ⟨rule, _, rfl⟩ | rfl | rfl
  · exact (Built.call rule).changesMatches
  · exact (Built.numeral true).changesMatches
  · exact (Built.numeral false).changesMatches

-- With nothing remembered, each of them comes to a match on every view.
theorem exists_run (grammar : Grammar) {p : Pattern} (hp : p ∈ parsers) (view : View) :
    ∃ result state, (grammar.rules.run p view).run {} = .ok (result, state) := by
  have hplain : p.remembered = [] ∧ ∃ result,
      p.parser (grammar.plainRules.runWithin (grammar.rules.depthFor view)) view = pure result := by
    simp only [parsers, List.mem_append, List.mem_map, List.mem_cons, List.not_mem_nil,
      or_false] at hp
    rcases hp with ⟨rule, hrule, rfl⟩ | rfl | rfl
    · obtain ⟨result, hresult, -⟩ := (plainRules_reads grammar hrule
        (nesting_lt_depthFor grammar rule (Nat.le_refl view.size))).exists_pure
      exact ⟨rfl, result, hresult⟩
    · obtain ⟨result, hresult, -⟩ := (numeral_reads view).exists_pure
      exact ⟨(Built.numeral true).remembered, result, hresult⟩
    · obtain ⟨result, hresult, -⟩ := (numeral_reads view).exists_pure
      exact ⟨(Built.numeral false).remembered, result, hresult⟩
  obtain ⟨hremembered, result, hresult⟩ := hplain
  have htruthful : grammar.rules.Truthful p ({} : ParseState).memo := grammar.rules.truthful_empty p
  obtain ⟨state, hrun, -⟩ := run_of_plain hremembered hresult htruthful
  exact ⟨result, state, hrun⟩

-- A part of a text is read as a text of its own would be read, with all offsets moved to where the
-- part begins. So what is read of two texts is the same where they agree on the part that is read.
theorem text_outside_is_not_seen :
    (∀ (rules : Rules) (p : Pattern), rules.OffsetFree → p.OffsetFree →
      ∀ (depth : Nat) (view : View) (source : Source) (before before' : ParseState),
        source.chars = view.chars → before.memo = ∅ → before'.memo = ∅ →
        Outcomes (fun after after' =>
            Move.Matches ⟨view.source, source, view.pos⟩ after.1 after'.1)
          ((p.parser (rules.runWithin depth) view).run before)
          ((p.parser (rules.runWithin depth) (.whole source)).run before')) ∧
      (∀ (grammar : Grammar), ∀ p ∈ parsers, ∀ (view : View) (source : Source),
        source.chars = view.chars → ∃ result result' state state',
          (grammar.rules.run p view).run {} = .ok (result, state) ∧
          (grammar.rules.run p (.whole source)).run {} = .ok (result', state') ∧
          Move.Matches ⟨view.source, source, view.pos⟩ result result') ∧
      ∀ (rules : Rules) (p : Pattern), rules.OffsetFree → p.OffsetFree →
        ∀ (depth : Nat) (view view' : View) (before before' : ParseState),
          view.pos = view'.pos → view.stop = view'.stop → view.chars = view'.chars →
          before.memo = ∅ → before'.memo = ∅ →
          Outcomes (fun after after' => Move.Matches ⟨view.source, view'.source, 0⟩ after.1 after'.1)
            ((p.parser (rules.runWithin depth) view).run before)
            ((p.parser (rules.runWithin depth) view').run before') := by
  have halike : ∀ (rules : Rules) (p : Pattern), rules.OffsetFree → p.OffsetFree →
      ∀ (depth : Nat) (move : Move) (view view' : View) (before before' : ParseState),
        move.Views view view' → before.memo = ∅ → before'.memo = ∅ →
        Outcomes (fun after after' => move.Matches after.1 after'.1)
          ((p.parser (rules.runWithin depth) view).run before)
          ((p.parser (rules.runWithin depth) view').run before') := by
    intro rules p hrules hp depth move view view' before before' hview hbefore hbefore'
    have hp' := p.alike_pattern (Rules.alike_runWithin hrules depth) hp view view' hview
    exact (hp' before before' (Move.states_of_empty hbefore hbefore')).mono fun _ _ h => h.1
  refine ⟨?_, ?_, ?_⟩
  · intro rules p hrules hp depth view source before before' hchars hbefore hbefore'
    exact halike rules p hrules hp depth _ view (.whole source) before before' (.whole hchars)
      hbefore hbefore'
  · intro grammar p hp view source hchars
    obtain ⟨result, state, hrun⟩ := grammar.exists_run hp view
    obtain ⟨result', state', hrun'⟩ := grammar.exists_run hp (.whole source)
    have houtcomes := Rules.alike_run grammar.keepMatches_rules.offsetFree (offsetFree_parsers hp)
      view (.whole source) (.whole hchars) {} {} (Move.states_of_empty rfl rfl)
    rw [hrun, hrun'] at houtcomes
    cases houtcomes with
    | ok h => exact ⟨result, result', state, state', hrun, hrun', h.1⟩
  · intro rules p hrules hp depth view view' before before' hpos hstop hchars hbefore hbefore'
    exact halike rules p hrules hp depth _ view view' before before'
      (.samePlace hpos hstop hchars) hbefore hbefore'

-- The arguments of a call, in their place and by themselves.
theorem text_outside_is_not_seen_in_a_call :
    ∃ result result' state state',
      ((Grammar.rules ⟨["f"]⟩).run (call .arguments) (.between (.of "" "f(1,2)3") 2 5)).run {} =
        .ok (result, state) ∧
      ((Grammar.rules ⟨["f"]⟩).run (call .arguments) (.whole (.of "" "1,2"))).run {} =
        .ok (result', state') ∧
      result'.failed = false ∧ result.value = result'.value ∧
      result'.rest.pos = 3 ∧ result.rest.pos = 5 := by
  obtain ⟨result, result', state, state', hrun, hrun', hmatches⟩ :=
    text_outside_is_not_seen.2.1 ⟨["f"]⟩ (call .arguments) (by simp [parsers, ruleNames])
      (.between (.of "" "f(1,2)3") 2 5) (.of "" "1,2") (by decide)
  have halone : (((Grammar.rules ⟨["f"]⟩).run (call .arguments) (.whole (.of "" "1,2"))).run {}).map
      (fun after => (after.1.failed, after.1.rest.pos)) = .ok (false, 3) := by decide +kernel
  rw [hrun'] at halone
  obtain ⟨hok, hrest⟩ : result'.failed = false ∧ result'.rest.pos = 3 :=
    Prod.mk.inj (Except.ok.inj halone)
  refine ⟨result, result', state, state', hrun, hrun', hok, hmatches.value, hrest, ?_⟩
  have hpos : (result.rest.pos : Int) = result'.rest.pos + 2 := hmatches.rest.pos
  omega

end Abacus.Grammar
