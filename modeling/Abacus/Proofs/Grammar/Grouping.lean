import Abacus.Proofs.Grammar.Locality
import Mathlib.Data.List.Forall2

namespace Abacus

namespace Parser

variable {move : Move} {p q q' : Parser} {view : View} {combine : Combiner}

theorem seq_congr_of_fails (h : p.Fails view) : seq p q combine view = seq p q' combine view := by
  obtain ⟨result, hf, hp⟩ := h
  simp [seq, hp, hf]

theorem Takes.eq {p' : Parser} {count : Nat} {value : Value} (h : p.Takes view count value)
    (h' : p'.Takes view count value) : p view = p' view := h.2.trans h'.2.symm

theorem Alike.firstOf {ps ps' : List Parser} (h : List.Forall₂ (Alike move) ps ps') :
    Alike move (Parser.firstOf ps) (Parser.firstOf ps') := by
  induction h with
  | nil => exact .never _
  | cons hp hps ih =>
    cases hps with
    | nil => exact hp
    | cons _ _ => exact .alt hp ih

theorem Alike.exists_run {p' : Parser} {view' : View} {result : Match} (h : Alike move p p')
    (hview : move.Views view view') (hp : p view = pure result) :
    ∃ other state, (p' view').run {} = .ok (other, state) ∧ move.Matches result other := by
  have houtcomes := h view view' hview {} {} (Move.states_of_empty rfl rfl)
  rw [hp] at houtcomes
  generalize (p' view').run {} = run at houtcomes ⊢
  cases houtcomes with
  | @ok _ after hafter => exact ⟨after.1, after.2, rfl, hafter.1⟩

theorem Reads.errorAt_eq {described : List Char → Value → Prop} {result : Match}
    (h : p.Reads view described) (hp : p view = pure result) (hok : result.failed = false) :
    result.errorAt = -1 := by
  rcases h with ⟨result', hf, hp'⟩ | ⟨count, value, -, htakes, -⟩
  · rw [ParseM.pure_inj (hp.symm.trans hp'), hf] at hok
    cases hok
  · rw [ParseM.pure_inj (hp.symm.trans htakes.2)]
    rfl

end Parser

-- Two matches that are the same as a third one elsewhere are the same.
theorem Move.Matches.eq {move : Move} {result result' other : Match}
    (h : move.Matches result other) (h' : move.Matches result' other)
    (herror : result.failed = false → result.errorAt = result'.errorAt) : result = result' := by
  have hvalue : result.value = result'.value := h.value.trans h'.value.symm
  have hrest : result.rest = result'.rest := (h.rest.eq_iff h'.rest).mpr rfl
  have hstart : result.start = result'.start := h.start.trans h'.start.symm
  have hcomplaint : result.complaint = result'.complaint := h.complaint.trans h'.complaint.symm
  have herrorAt : result.errorAt = result'.errorAt := by
    cases hf : result.failed with
    | false => exact herror hf
    | true => exact (h.errorAt hf).trans (h'.errorAt (by rw [Match.failed, ← hvalue]; exact hf)).symm
  cases result
  cases result'
  simp_all

namespace Grammar

open Abacus.Pattern Abacus.Parser

variable {move : Move} {rules : RuleName → Parser} {view : View} {text : List Char}

-- No comma stands directly between two digits.
def NoGroupingComma (text : List Char) : Prop :=
  ∀ c d : Char, c.isDigit = true → d.isDigit = true → ¬[c, ',', d] <:+: text

theorem NoGroupingComma.infix {part : List Char} (h : NoGroupingComma text)
    (hpart : part <:+: text) : NoGroupingComma part :=
  fun c d hc hd hcomma => h c d hc hd (hcomma.trans hpart)

theorem noGroupingComma_view (h : NoGroupingComma view.source.chars) :
    NoGroupingComma view.chars := by
  rw [View.chars_eq]
  exact h.infix ((List.take_prefix _ _).isInfix.trans (List.drop_suffix _ _).isInfix)

theorem exists_digits_append (text : List Char) :
    ∃ digits rest, text = digits ++ rest ∧ (∀ c ∈ digits, c.isDigit = true) ∧
      ∀ c ∈ rest.head?, c.isDigit = false := by
  induction text with
  | nil => exact ⟨[], [], rfl, List.forall_mem_nil _, nofun⟩
  | cons c text ih =>
    cases hc : c.isDigit with
    | false =>
      refine ⟨[], c :: text, rfl, List.forall_mem_nil _, ?_⟩
      rintro _ ⟨⟩
      exact hc
    | true =>
      obtain ⟨digits, rest, rfl, hdigits, hrest⟩ := ih
      exact ⟨c :: digits, rest, rfl, List.forall_mem_cons.mpr ⟨hc, hdigits⟩, hrest⟩

-- The whole part is the digits up to the first character that is none, also where that is a comma.
theorem wholePattern_takes_digits {grouping : Bool} {digits rest : List Char}
    (hcommas : NoGroupingComma view.chars) (hdigits : Digits digits)
    (hchars : view.chars = digits ++ rest) (hrest : ∀ c ∈ rest.head?, c.isDigit = false) :
    Takes ((wholePattern grouping).parser rules) view digits.length
      (.str (String.ofList digits)) := by
  apply wholePattern_takes_of_stop hdigits.whole hchars
  intro v hv
  -- A comma may stand behind the last digit, but then no digit stands behind the comma.
  refine furtherDigit_fails_of_head (hv ▸ hrest) fun _ d back hback => ?_
  obtain ⟨front, c, rfl⟩ := (List.eq_nil_or_concat digits).resolve_left hdigits.1
  have hc : c.isDigit = true := hdigits.2 c (by simp)
  have hinfix : [c, ',', d] <:+: view.chars := ⟨front, back, by rw [hchars, ← hv, hback]; simp⟩
  by_contra hd
  exact hcommas c d hc (by simpa using hd) hinfix

theorem wholePattern_eq (h : NoGroupingComma view.chars) :
    (wholePattern true).parser rules view = (wholePattern false).parser rules view := by
  obtain ⟨digits, rest, hchars, hdigits, hrest⟩ := exists_digits_append view.chars
  by_cases hne : digits = []
  · subst hne
    exact seq_congr_of_fails (digit_fails (hchars ▸ hrest))
  · exact (wholePattern_takes_digits h ⟨hne, hdigits⟩ hchars hrest).eq
      (wholePattern_takes_digits h ⟨hne, hdigits⟩ hchars hrest)

theorem numeral_eq_of_noGroupingComma (h : NoGroupingComma view.chars) :
    (numeral true).parser rules view = (numeral false).parser rules view := by
  have hwhole : (wholePattern true).parser rules view = (wholePattern false).parser rules view :=
    wholePattern_eq h
  rw [numeral_eq, numeral_eq]
  simp only [Pattern.eitherOrBoth, parser, Parser.reword, Parser.mapValue, Parser.mapMatch,
    Parser.alt, Parser.seq, hwhole]

theorem Built.alike {p : Pattern} (h : Built p)
    (hrules : ∀ name, Alike move (rules name) (rules name)) :
    Alike move (p.parser rules) (p.parser rules) :=
  p.alike_pattern hrules (offsetFree_of_not_changesMatches h.changesMatches)

theorem alike_numeral (h : NoGroupingComma move.second.chars)
    (hrules : ∀ name, Alike move (rules name) (rules name)) :
    Alike move ((numeral true).parser rules) ((numeral false).parser rules) := by
  intro view view' hview
  have hcommas : NoGroupingComma view.chars := by
    rw [hview.chars]
    exact noGroupingComma_view (hview.second ▸ h)
  rw [numeral_eq_of_noGroupingComma hcommas]
  exact (Built.numeral false).alike hrules view view' hview

-- The alternatives of two rules, one by one: the rule itself is called in operations and in groups,
-- and calls of functions are the same for both.
theorem alike_alternatives (grammar : Grammar) {rule rule' : RuleName} {number number' : Pattern}
    (hrules : ∀ name, Alike move (rules name) (rules name))
    (hrule : Alike move (rules rule) (rules rule'))
    (hnumber : Alike move (number.parser rules) (number'.parser rules)) :
    Alike move ((grammar.alternatives rule number).parser rules)
      ((grammar.alternatives rule' number').parser rules) := by
  have hbinary : ∀ operator, Alike move ((binary rule operator).parser rules)
      ((binary rule' operator).parser rules) := fun operator =>
    .seq (.splitShortest hrule ((built_operatorPattern operator).alike hrules)) hrule
  have hgroup : ∀ bracket, Alike move ((bracketed (call rule) bracket).parser rules)
      ((bracketed (call rule') bracket).parser rules) := fun bracket =>
    .seq ((Built.character bracket.1).alike hrules) (.seq (Built.blanks.alike hrules)
      (.seq hrule (.seq (Built.blanks.alike hrules) ((Built.character bracket.2).alike hrules))))
  have hmap : ∀ {α : Type} (items : List α) (f f' : α → Pattern),
      (∀ item, Alike move ((f item).parser rules) ((f' item).parser rules)) →
      List.Forall₂ (Alike move) ((items.map f).map (parser rules))
        ((items.map f').map (parser rules)) := by
    intro α items f f' h
    simp only [List.forall₂_map_left_iff, List.forall₂_map_right_iff, List.forall₂_same]
    exact fun item _ => h item
  rw [alternatives, alternatives, parser_firstOf, parser_firstOf]
  simp only [List.map_append]
  refine .firstOf (List.rel_append (List.rel_append (List.rel_append ?_ ?_) ?_) ?_)
  · exact hmap _ _ _ hbinary
  · exact hmap _ _ _ fun name => (built_application name).alike hrules
  · exact hmap _ _ _ hgroup
  · exact .cons hnumber .nil

-- However deep calls may nest, where the shared text has no comma between two digits.
theorem alike_expression_argument (grammar : Grammar) (h : NoGroupingComma move.second.chars)
    (depth : Nat) :
    Alike move (grammar.plainRules.runWithin depth .expression)
      (grammar.plainRules.runWithin depth .argument) := by
  induction depth with
  | zero => exact .stalled
  | succ depth ih =>
    have hrules : ∀ name, Alike move (grammar.plainRules.runWithin depth name)
        (grammar.plainRules.runWithin depth name) :=
      Rules.alike_runWithin grammar.keepMatches_plainRules.offsetFree depth
    exact grammar.alike_alternatives hrules ih (alike_numeral h hrules)

-- The text of the view is looked at in a source of its own, which has no comma between two digits
-- anywhere.
theorem exists_plain_match (grammar : Grammar) (h : NoGroupingComma view.chars) :
    ∃ result,
      grammar.plainRules.runWithin (grammar.rules.depthFor view) .expression view = pure result ∧
        grammar.plainRules.runWithin (grammar.rules.depthFor view) .argument view = pure result := by
  have hreads : ∀ rule ∈ ruleNames, Reads (grammar.plainRules.runWithin
      (grammar.rules.depthFor view) rule) view (Derives grammar.names rule) := fun rule hrule =>
    plainRules_reads grammar hrule (nesting_lt_depthFor grammar rule (Nat.le_refl view.size))
  have hexpression := hreads .expression (by decide)
  have hargument := hreads .argument (by decide)
  obtain ⟨result, hresult, -⟩ := hexpression.exists_pure
  obtain ⟨result', hresult', -⟩ := hargument.exists_pure
  let move : Move := ⟨view.source, .of "" view.text, view.pos⟩
  have hchars : (Source.of "" view.text).chars = view.chars := by simp [View.text]
  have hview : move.Views view (.whole (.of "" view.text)) := .whole hchars
  have hcommas : NoGroupingComma move.second.chars := by rwa [hchars]
  -- Both come to what the argument comes to in that source.
  obtain ⟨other, state, hother, hmatches⟩ :=
    (grammar.alike_expression_argument hcommas _).exists_run hview hresult
  obtain ⟨other', state', hother', hmatches'⟩ :=
    (Rules.alike_runWithin grammar.keepMatches_plainRules.offsetFree _ _).exists_run hview hresult'
  rw [hother] at hother'
  cases hother'
  have hsame : result = result' := by
    refine hmatches.eq hmatches' fun hok => ?_
    have hok' : result'.failed = false := by
      rw [hmatches'.failed_eq, ← hmatches.failed_eq]
      exact hok
    rw [hexpression.errorAt_eq hresult hok, hargument.errorAt_eq hresult' hok']
  exact ⟨result, hresult, hsame ▸ hresult'⟩

-- On a view without a comma directly between two digits, an expression and an argument come to one
-- and the same match, whatever is remembered of either.
theorem expression_and_argument_agree (grammar : Grammar) (view : View)
    (h : NoGroupingComma view.chars) :
    ∃ result,
      (∀ state : ParseState, grammar.rules.Truthful (call .expression) state.memo →
        ∃ state', (grammar.rules.run (call .expression) view).run state = .ok (result, state')) ∧
      ∀ state : ParseState, grammar.rules.Truthful (call .argument) state.memo →
        ∃ state', (grammar.rules.run (call .argument) view).run state = .ok (result, state') := by
  obtain ⟨result, hexpression, hargument⟩ := grammar.exists_plain_match h
  refine ⟨result, fun state htruthful => ?_, fun state htruthful => ?_⟩
  · obtain ⟨state', hrun, -⟩ := run_of_plain (p := call .expression) rfl hexpression htruthful
    exact ⟨state', hrun⟩
  · obtain ⟨state', hrun, -⟩ := run_of_plain (p := call .argument) rfl hargument htruthful
    exact ⟨state', hrun⟩

-- The commas that separate the arguments, or the parts of the text around, do not matter.
theorem expression_and_argument_agree_on_a_call :
    ∃ result state state',
      ((Grammar.rules ⟨["f"]⟩).run (call .expression) (.between (.of "" "1,2*f(3, 4)") 2 11)).run {} =
        .ok (result, state) ∧
      ((Grammar.rules ⟨["f"]⟩).run (call .argument) (.between (.of "" "1,2*f(3, 4)") 2 11)).run {} =
        .ok (result, state') ∧
      result.failed = false := by
  have hcommas : NoGroupingComma (View.between (.of "" "1,2*f(3, 4)") 2 11).chars := by
    have hchars : (View.between (.of "" "1,2*f(3, 4)") 2 11).chars = "2*f(3, 4)".toList := by decide
    rw [hchars]
    intro c d hc hd hcomma
    obtain ⟨-, rfl⟩ : c = '3' ∧ d = ' ' := by simpa [List.infix_cons_iff] using hcomma
    cases hd
  obtain ⟨result, hexpression, hargument⟩ := expression_and_argument_agree ⟨["f"]⟩ _ hcommas
  obtain ⟨state, hrun⟩ := hexpression {} (Rules.truthful_empty _ _)
  obtain ⟨state', hrun'⟩ := hargument {} (Rules.truthful_empty _ _)
  have hfailed : (((Grammar.rules ⟨["f"]⟩).run (call .expression)
      (.between (.of "" "1,2*f(3, 4)") 2 11)).run {}).map (fun after => after.1.failed) =
        .ok false := by decide +kernel
  rw [hrun] at hfailed
  exact ⟨result, state, state', hrun, hrun', Except.ok.inj hfailed⟩

end Grammar

end Abacus
