import Abacus.Proofs.Grammar.Composition

namespace Abacus

namespace Pattern

theorem plain_eq_self {p : Pattern} (h : p.remembered = []) : p.plain = p := by
  induction p <;> simp_all [plain, remembered]

end Pattern

namespace Grammar

open Pattern

variable (grammar : Grammar)

def plainRules : Rules where
  expression := grammar.alternatives .expression (numeral true)
  argument := grammar.alternatives .argument (numeral false)
  arguments := argumentsBody
  named := []

theorem remembered_expression :
    (grammar.alternatives .expression (numeral true)).remembered = [] :=
  (grammar.built_alternatives .expression (.numeral true)).remembered

theorem remembered_argument :
    (grammar.alternatives .argument (numeral false)).remembered = [] :=
  (grammar.built_alternatives .argument (.numeral false)).remembered

theorem plain_rules : grammar.rules.plain = grammar.plainRules := by
  have hexpression : grammar.expressionBody.plain = grammar.alternatives .expression (numeral true) :=
    plain_eq_self grammar.remembered_expression
  have hargument : grammar.argumentBody.plain = grammar.alternatives .argument (numeral false) :=
    plain_eq_self grammar.remembered_argument
  simp only [Rules.plain, rules, hexpression, hargument, plainRules, List.map_nil]
  rfl

theorem keepMatches_plainRules (grammar : Grammar) : grammar.plainRules.KeepMatches :=
  Rules.keepMatches_of_calculator rfl
    (grammar.built_alternatives .expression (.numeral true)).changesMatches
    (grammar.built_alternatives .argument (.numeral false)).changesMatches
    built_argumentsBody.changesMatches

-- The results of expressions and those of arguments are remembered under names of their own.
theorem namesApart_rules {p : Pattern} (hp : p.remembered = []) : grammar.rules.NamesApart p := by
  have hremembers : ∀ name q, grammar.rules.Remembers p name q →
      (name = "expr" ∧ q = grammar.alternatives .expression (numeral true)) ∨
        (name = "arg_expr" ∧ q = grammar.alternatives .argument (numeral false)) := by
    intro name q h
    rcases h with h | ⟨rule, body, hbody, h⟩
    · rw [hp] at h
      cases h
    · cases rule with
      | expression =>
        cases hbody
        have hmem : (name, q) ∈ [("expr", grammar.alternatives .expression (numeral true))] := by
          simpa [rules, expressionBody, remembered, remembered_expression] using h
        exact .inl (Prod.mk.injEq .. ▸ List.mem_singleton.mp hmem)
      | argument =>
        cases hbody
        have hmem : (name, q) ∈ [("arg_expr", grammar.alternatives .argument (numeral false))] := by
          simpa [rules, argumentBody, remembered, remembered_argument] using h
        exact .inr (Prod.mk.injEq .. ▸ List.mem_singleton.mp hmem)
      | arguments =>
        cases hbody
        cases h
      | named other => cases hbody
  intro name q q' h h'
  rcases hremembers name q h with ⟨rfl, rfl⟩ | ⟨rfl, rfl⟩ <;>
    rcases hremembers _ q' h' with ⟨hname, rfl⟩ | ⟨hname, rfl⟩
  · rfl
  · exact absurd hname (by decide)
  · exact absurd hname (by decide)
  · rfl

end Grammar

end Abacus
