import Abacus.Proofs.Parsing.Discipline
import Abacus.Proofs.Parsing.Transparency

namespace Abacus

-- The log is not looked at.
theorem Parser.Refines.watched {f g : Parser} (h : Refines (fun _ => True) f g) (label : String) :
    Refines (fun _ => True) (Parser.watch label f) g :=
  Simulates.watched (fun _ _ _ _ => trivial) h label

-- The call of a rule, as the log has it.
def Attempt.ofCall (rule : RuleName) (view : View) : Attempt := ⟨rule.text, view.pos, view.stop⟩

namespace Rules

-- The rules with every call of them in the log.
def watched (rules : Rules) : Rules where
  expression := .watch RuleName.expression.text rules.expression
  argument := .watch RuleName.argument.text rules.argument
  arguments := .watch RuleName.arguments.text rules.arguments
  named := rules.named.map fun (name, p) => (name, .watch name p)

theorem body?_watched (rules : Rules) (name : RuleName) :
    rules.watched.body? name = (rules.body? name).map (Pattern.watch name.text) := by
  cases name with
  | expression => rfl
  | argument => rfl
  | arguments => rfl
  | named name =>
    simp only [body?, watched, ← List.map_reverse, List.find?_map, Option.map_map]
    change Option.map _ (rules.named.reverse.find? (·.1 = name)) = _
    cases hfound : rules.named.reverse.find? (·.1 = name) with
    | none => rfl
    | some found =>
      have hname : found.1 = name := by simpa using List.find?_some hfound
      simp [RuleName.text, hname]

variable {rules : Rules} {p : Pattern}

theorem keepMatches_watched (hrules : rules.KeepMatches) : rules.watched.KeepMatches := by
  intro name body hbody
  rw [body?_watched] at hbody
  obtain ⟨inner, hinner, rfl⟩ := Option.map_eq_some_iff.mp hbody
  exact hrules name inner hinner

theorem remembers_watched {name : String} {q : Pattern} :
    rules.watched.Remembers p name q ↔ rules.Remembers p name q := by
  constructor
  · rintro (h | ⟨rule, body, hbody, h⟩)
    · exact .inl h
    · rw [body?_watched] at hbody
      obtain ⟨inner, hinner, rfl⟩ := Option.map_eq_some_iff.mp hbody
      exact .inr ⟨rule, inner, hinner, h⟩
  · rintro (h | ⟨rule, body, hbody, h⟩)
    · exact .inl h
    · exact .inr ⟨rule, .watch rule.text body, by rw [body?_watched, hbody]; rfl, h⟩

theorem namesApart_watched (h : rules.NamesApart p) : rules.watched.NamesApart p :=
  fun name q q' hq hq' => h name q q' (remembers_watched.mp hq) (remembers_watched.mp hq')

theorem refines_watched_runWithin (rules : Rules) (depth : Nat) (name : RuleName) :
    Parser.Refines (fun _ => True) (rules.watched.plain.runWithin depth name)
      (rules.plain.runWithin depth name) := by
  induction depth generalizing name with
  | zero => exact fun _ => .throw _ _
  | succ depth ih =>
    intro view
    simp only [runWithin, body?_plain, body?_watched]
    cases rules.body? name with
    | none => exact .throw _ _
    | some body => exact (Pattern.refines_plain ih body).watched name.text view

theorem Yields.watched {q : Pattern} {view : View} {result : Match}
    (h : rules.plain.Yields q.plain view result) :
    rules.watched.plain.Yields q.plain view result := by
  obtain ⟨depth, before, after, hrun⟩ := h
  obtain ⟨state, hstate, -⟩ := Pattern.refines_plain (refines_watched_runWithin rules depth) q view
    result before after hrun {} trivial
  exact ⟨depth, {}, state, hstate⟩

theorem Truthful.watched {table : MemoTable} (h : rules.Truthful p table) :
    rules.watched.Truthful p table :=
  fun name q view result hq hfound => (h name q view result (remembers_watched.mp hq) hfound).watched

-- What is found when nothing is remembered is found by the watched rules too.
theorem run_watched (hapart : rules.NamesApart p) {depth : Nat} {view : View} {result : Match}
    {before after state : ParseState}
    (hrun : (p.plain.parser (rules.plain.runWithin depth) view).run before = .ok (result, after))
    (htruthful : rules.Truthful p state.memo) :
    ∃ state', (p.parser (rules.watched.runWithin depth) view).run state = .ok (result, state') := by
  obtain ⟨between, hbetween, -⟩ := Pattern.refines_plain (refines_watched_runWithin rules depth) p
    view result before after hrun {} trivial
  obtain ⟨state', hstate', -⟩ := refines_pattern (namesApart_watched hapart) depth view result {}
    between hbetween state htruthful.watched
  exact ⟨state', hstate'⟩

end Rules

end Abacus
