import Abacus.Grammar.Basic
import Abacus.Proofs.Parsing.Discipline
import Abacus.Proofs.Parsing.Transparency

namespace Abacus

namespace Pattern

variable {motive : Pattern → Prop}

theorem firstOf_induction {ps : List Pattern} (hnever : ∀ complaint, motive (never complaint))
    (halt : ∀ p q, motive p → motive q → motive (alt p q)) (h : ∀ p ∈ ps, motive p) :
    motive (firstOf ps) := by
  induction ps with
  | nil => exact hnever _
  | cons p ps ih =>
    have hfirst := h p List.mem_cons_self
    cases ps with
    | nil => exact hfirst
    | cons q qs => exact halt _ _ hfirst (ih fun p' hp' => h p' (List.mem_cons_of_mem _ hp'))

-- A word is its characters in a row, with a complaint of its own.
theorem word_induction (hempty : motive (always (.str "")))
    (hmore : ∀ c p, motive p → motive (seq (character c) p .joining))
    (hreword : ∀ p change, motive p → motive (reword p change)) (text : String) :
    motive (word text) := by
  have hchars : ∀ chars, motive (wordChars chars) := by
    intro chars
    induction chars with
    | nil => exact hempty
    | cons c chars ih => exact hmore c _ ih
  exact hreword _ _ (hchars text.toList)

end Pattern

namespace Grammar

open Pattern

inductive Built : Pattern → Prop
  | blanks : Built blanks
  | character (c : Char) : Built (character c)
  | word (text : String) : Built (word text)
  | numeral (grouping : Bool) : Built (numeral grouping)
  | call (rule : RuleName) : Built (call rule)
  | always (value : Value) : Built (always value)
  | never (complaint : Complaint) : Built (never complaint)
  | notAhead {p : Pattern} : Built p → Built (notAhead p)
  | alt {p q : Pattern} : Built p → Built q → Built (alt p q)
  | seq {p q : Pattern} {combine : Combiner} :
      combine ≠ .joining → Built p → Built q → Built (seq p q combine)
  | splitShortest {p q : Pattern} {combine : Combiner} :
      combine ≠ .joining → Built p → Built q → Built (splitShortest p q combine)
  | complete {p : Pattern} : Built p → Built (complete p)
  | mapValue {p : Pattern} {change : Value → Except Fault Value} :
      change ≠ numberValue → Built p → Built (mapValue p change)

-- What makes something of any two payloads does not join texts.
theorem ne_joining {combine : Combiner} {value : Value} (h : combine .null .null = .ok value) :
    combine ≠ .joining := by
  rintro rfl
  cases h

theorem ne_numberValue {change : Value → Except Fault Value} {value : Value}
    (h : change .null = .ok value) : change ≠ numberValue := by
  rintro rfl
  cases h

namespace Built

theorem optionally {p : Pattern} (h : Built p) : Built (optionally p) := .alt h (.always _)

theorem firstOf {ps : List Pattern} (h : ∀ p ∈ ps, Built p) : Built (firstOf ps) :=
  firstOf_induction .never (fun _ _ => .alt) h

theorem firstOf_map {α : Type} {items : List α} {f : α → Pattern}
    (h : ∀ item ∈ items, Built (f item)) : Built (Pattern.firstOf (items.map f)) :=
  firstOf fun _ hp => by
    obtain ⟨item, hitem, rfl⟩ := List.mem_map.mp hp
    exact h item hitem

theorem sequenceKeeping {ps : List Pattern} (h : ∀ p ∈ ps, Built p) (index : Int) :
    Built (sequenceKeeping ps index) := by
  induction ps generalizing index with
  | nil => exact .never _
  | cons p ps ih =>
    cases ps with
    | nil => exact h p List.mem_cons_self
    | cons q qs =>
      have hkeeps : (if index = 0 then Combiner.first else Combiner.second) ≠ .joining := by
        split <;> exact ne_joining rfl
      exact .seq hkeeps (h p List.mem_cons_self)
        (ih (fun p' hp' => h p' (List.mem_cons_of_mem _ hp')) (index - 1))

end Built

theorem built_spelledOperator (spelling : String) : Built (spelledOperator spelling) := by
  unfold spelledOperator
  split
  · exact .word spelling
  · exact .seq (ne_joining rfl) (.notAhead (.firstOf_map fun longer _ => .word longer))
      (.word spelling)

theorem built_operatorPattern (operator : Operator) : Built (operatorPattern operator) :=
  .sequenceKeeping (List.forall_mem_cons.mpr ⟨.blanks, List.forall_mem_cons.mpr
    ⟨.firstOf_map fun spelling _ => built_spelledOperator spelling,
      List.forall_mem_singleton.mpr .blanks⟩⟩) 1

theorem built_binary (rule : RuleName) (operator : Operator) : Built (binary rule operator) :=
  .seq (ne_joining rfl)
    (.splitShortest (ne_joining rfl) (.call rule) (built_operatorPattern operator)) (.call rule)

theorem built_bracketed {inner : Pattern} (h : Built inner) (bracket : Char × Char) :
    Built (bracketed inner bracket) := by
  refine .sequenceKeeping (fun p hp => ?_) 2
  simp only [List.mem_cons, List.not_mem_nil, or_false] at hp
  rcases hp with rfl | rfl | rfl | rfl | rfl
  · exact .character bracket.1
  · exact .blanks
  · exact h
  · exact .blanks
  · exact .character bracket.2

theorem built_application (name : String) : Built (application name) := by
  have hchange : (fun value => .ok (orNoArguments value)) ≠ numberValue := ne_numberValue rfl
  refine .mapValue (ne_numberValue rfl) (.sequenceKeeping (fun p hp => ?_) 3)
  simp only [List.mem_cons, List.not_mem_nil, or_false] at hp
  rcases hp with rfl | rfl | rfl | rfl | rfl
  · exact .blanks
  · exact .word name
  · exact .blanks
  · exact .firstOf_map fun bracket _ => built_bracketed
      (.mapValue hchange (Built.call .arguments).optionally) bracket
  · exact .blanks

theorem built_alternatives (grammar : Grammar) (rule : RuleName) {number : Pattern}
    (h : Built number) : Built (grammar.alternatives rule number) := by
  refine .firstOf fun p hp => ?_
  simp only [List.mem_append, List.mem_map, List.mem_singleton] at hp
  rcases hp with ((⟨operator, _, rfl⟩ | ⟨name, _, rfl⟩) | ⟨bracket, _, rfl⟩) | rfl
  · exact built_binary rule operator
  · exact built_application name
  · exact built_bracketed (.call rule) bracket
  · exact h

theorem built_argumentsBody : Built argumentsBody := by
  refine .seq (ne_joining rfl) (.call .argument) (Built.sequenceKeeping (fun p hp => ?_) 3).optionally
  simp only [List.mem_cons, List.not_mem_nil, or_false] at hp
  rcases hp with rfl | rfl | rfl | rfl
  · exact .blanks
  · exact .character ','
  · exact .blanks
  · exact .call .arguments

theorem built_wholeText : Built wholeText := by
  refine .mapValue (ne_numberValue rfl) (.complete (.sequenceKeeping (fun p hp => ?_) 1))
  simp only [List.mem_cons, List.not_mem_nil, or_false] at hp
  rcases hp with rfl | rfl | rfl
  · exact .blanks
  · exact .call .expression
  · exact .blanks

-- Only the rules themselves are remembered, not what they are built of.
theorem Built.quiet {p : Pattern} (h : Built p) : p.quiet = true := by
  induction h with
  | word text =>
    exact word_induction (motive := fun p => p.quiet = true) rfl (fun _ _ ih => ih)
      (fun _ _ ih => ih) text
  | numeral grouping => cases grouping <;> rfl
  | blanks | character _ | call _ | always _ | never _ => rfl
  | notAhead _ ih | complete _ ih | mapValue _ _ ih => exact ih
  | alt _ _ ih ih' | seq _ _ _ ih ih' | splitShortest _ _ _ ih ih' =>
    exact Bool.and_eq_true_iff.mpr ⟨ih, ih'⟩

theorem Built.remembered {p : Pattern} (h : Built p) : p.remembered = [] :=
  remembered_of_quiet h.quiet

theorem Built.changesMatches {p : Pattern} (h : Built p) : p.changesMatches = false := by
  induction h with
  | word text =>
    exact word_induction (motive := fun p => p.changesMatches = false) rfl (fun _ _ ih => ih)
      (fun _ _ ih => ih) text
  | numeral grouping => cases grouping <;> rfl
  | blanks | character _ | call _ | always _ | never _ => rfl
  | notAhead _ ih | complete _ ih | mapValue _ _ ih => exact ih
  | alt _ _ ih ih' | seq _ _ _ ih ih' | splitShortest _ _ _ ih ih' =>
    exact Bool.or_eq_false_iff.mpr ⟨ih, ih'⟩

-- What a rule has for a body, apart from the remembering.
theorem built_body (grammar : Grammar) {rule : RuleName} {body : Pattern}
    (h : grammar.rules.body? rule = some body) :
    Built body ∨ ∃ name p, body = remember name p ∧ Built p := by
  cases rule with
  | expression =>
    cases h
    exact .inr ⟨_, _, rfl, built_alternatives grammar .expression (.numeral true)⟩
  | argument =>
    cases h
    exact .inr ⟨_, _, rfl, built_alternatives grammar .argument (.numeral false)⟩
  | arguments =>
    cases h
    exact .inl built_argumentsBody
  | named name => cases h

theorem keepMatches_rules (grammar : Grammar) : grammar.rules.KeepMatches := by
  intro rule body hbody
  rcases grammar.built_body hbody with h | ⟨name, p, rfl, h⟩
  · exact h.changesMatches
  · exact h.changesMatches

end Grammar

end Abacus
