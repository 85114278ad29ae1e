import Abacus.Calculator
import Abacus.Proofs.Grammar.Whole
import Abacus.Proofs.Tree.Evaluation

namespace Abacus.Grammar

open Abacus.Parser

variable {names : List String} {rule : RuleName} {text : List Char} {value : Value}

-- What a rule has for a payload.
def Yields (names : List String) : RuleName → Value → Prop
  | .arguments, value => ∃ values, value = .ofArguments values ∧ ∀ v ∈ values, v.Proper names
  | _, value => value.Proper names

theorem yields_tree {grouping : Bool} (hrule : grouping? rule = some grouping) :
    Yields names rule value ↔ value.Proper names := by
  rcases grouping?_argument_or_expression hrule with ⟨rfl, _⟩ | ⟨rfl, _⟩ <;> exact Iff.rfl

theorem Derives.yields (h : Derives names rule text value) : Yields names rule value := by
  induction h with
  | literal hrule _ _ => exact (yields_tree hrule).mpr (.number _)
  | @binary _ _ operator _ _ _ _ _ _ _ hrule _ _ _ _ _ _ ihfront ihback =>
    exact (yields_tree hrule).mpr
      (.binary operator ((yields_tree hrule).mp ihfront) ((yields_tree hrule).mp ihback))
  | group _ _ _ _ _ ih => exact ih
  | call hrule hname _ _ _ _ _ _ _ ih =>
    obtain ⟨values, rfl, hvalues⟩ := ih
    exact (yields_tree hrule).mpr (.call hname hvalues)
  | @callOfNone _ _ name _ _ _ _ _ hrule hname =>
    have hcall : (Value.call name (.ofArguments [])).Proper names :=
      .call hname (List.forall_mem_nil _)
    exact (yields_tree hrule).mpr hcall
  | @lastArgument text first _ ih =>
    exact ⟨[first], rfl, List.forall_mem_singleton.mpr ih⟩
  | @moreArguments _ _ _ _ first _ _ _ _ _ ih ihrest =>
    obtain ⟨values, rfl, hvalues⟩ := ihrest
    exact ⟨first :: values, rfl, List.forall_mem_cons.mpr ⟨ih, hvalues⟩⟩

-- Every text comes to a match. An accepted one has a proper tree over the registered functions, and
-- whatever these functions do, nothing but failed calls of them is reported of it.
theorem accepted_trees_are_proper {σ : Type} (registry : Registry σ) (text name : String) :
    ∃ result, registry.grammar.1.parse text name = .ok result ∧
      (result.failed = false → ∃ tree, result.value = .root tree ∧ tree.Proper registry.names ∧
        ∀ state, ∀ anomaly ∈ (registry.grammar.2.evaluate result.value state).2.reports,
          anomaly.IsFailedCall registry.names ∧
            ∃ words, anomaly.message = "invalid call: " ++ words) := by
  obtain ⟨result, hplain, hresult⟩ :=
    (plain_wholeText_reads registry.grammar.1 (.whole (.of name text))).exists_pure
  refine ⟨result, parse_of_plain text name hplain, fun hok => ?_⟩
  obtain ⟨_, -, -, -, _, _, _, tree, -, -, -, hderived, hvalue⟩ := hresult hok
  have hproper : tree.Proper registry.names := hderived.yields
  refine ⟨tree, hvalue, hproper, fun state anomaly hanomaly => ?_⟩
  have heval : Evaluation.ReportsFailedCalls registry.names
      (Evaluation.eval registry.grammar.2 tree) := .eval hproper
  obtain ⟨failures, hreports, hfailures⟩ := heval { state := state }
  have hroot : (registry.grammar.2.evaluate result.value state).2.reports = failures := by
    rw [Registry.evaluate, hvalue, Evaluation.eval, hreports, List.nil_append]
  have hcall : anomaly.IsFailedCall registry.names := hfailures anomaly (hroot ▸ hanomaly)
  exact ⟨hcall, hcall.message⟩

-- Both calls of the function, the inner one and the outer one, fail.
theorem accepted_trees_are_proper_for_failing_calls :
    ∃ result tree, Grammar.parse ⟨["f"]⟩ " f{[f( )]}" "" = .ok result ∧
      result.value = .root tree ∧ tree.Proper ["f"] ∧
      ∀ anomaly ∈ ((Registry.freeze ⟨[("f", Closure.failing .noArgument)], false⟩).evaluate
          result.value ()).2.reports,
        anomaly.IsFailedCall ["f"] ∧ ∃ words, anomaly.message = "invalid call: " ++ words := by
  obtain ⟨result, hparse, hresult⟩ := @accepted_trees_are_proper Unit
    ⟨[("f", Closure.failing .noArgument)], false⟩ " f{[f( )]}" ""
  have hok : result.failed = false := by
    have hfailed : (Grammar.parse ⟨["f"]⟩ " f{[f( )]}" "").map Match.failed = .ok false := by
      decide +kernel
    change Grammar.parse ⟨["f"]⟩ _ _ = _ at hparse
    rw [hparse] at hfailed
    exact Except.ok.inj hfailed
  obtain ⟨tree, hvalue, hproper, hreports⟩ := hresult hok
  exact ⟨result, tree, hparse, hvalue, hproper, hreports ()⟩

end Abacus.Grammar
