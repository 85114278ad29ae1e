import Abacus.Proofs.Grammar.Whole
import Abacus.Proofs.Parsing.Diagnostics
import Abacus.Proofs.Parsing.Payloads

namespace Abacus.Grammar

open Abacus.Pattern Abacus.Parser

-- Texts are joined with texts only, a numeral without its commas is a plain decimal, and the tag of
-- an operation is that of an operator.
def requirements : Requirements where
  combines combine left right := combine = .joining → IsText left ∧ IsText right
  changes change value := change = numberValue →
    ∃ text : List Char, value = .str (String.ofList text) ∧ PlainDecimal (text.filter (· ≠ ','))
  makes value := ∀ operator left right, value = .binary operator left right →
    Operator.ofSymbol operator.symbol = .ok operator

theorem requirements_makes (value : Value) : requirements.makes value :=
  fun operator _ _ _ => operator.ofSymbol_symbol

theorem combiner_joining {left right : Value} (hleft : IsText left) (hright : IsText right) :
    requirements.combiner .joining left right = Combiner.joining left right :=
  Requirements.combiner_eq (fun _ => ⟨hleft, hright⟩) fun value _ => requirements_makes value

theorem combiner_of_ne_joining {combine : Combiner} (h : combine ≠ .joining) :
    requirements.combiner combine = combine := by
  funext left right
  exact Requirements.combiner_eq (fun heq => absurd heq h) fun value _ => requirements_makes value

theorem changer_of_ne_numberValue {change : Value → Except Fault Value} (h : change ≠ numberValue) :
    requirements.changer change = change := by
  funext value
  exact Requirements.changer_eq (fun heq => absurd heq h) fun changed _ => requirements_makes changed

theorem isText_joining {left right value : Value} (hleft : IsText left) (hright : IsText right)
    (h : Combiner.joining left right = .ok value) : IsText value := by
  obtain ⟨text, rfl⟩ := hleft
  obtain ⟨text', rfl⟩ := hright
  rw [Combiner.joining, Value.add_str] at h
  cases h
  exact ⟨_, rfl⟩

-- A pattern with nothing but texts for payloads.
structure Textual (p : Pattern) : Prop where
  meets : p.Meets requirements
  pays : ∀ rules, Pays (p.parser rules) IsText

namespace Textual

variable {p q : Pattern}

theorem emptyText : Textual (always (.str "")) where
  meets _ := rfl
  pays _ := (Pays.of_reads fun _ => always_reads rfl).mono fun _ ⟨_, _, h⟩ => ⟨"", h⟩

theorem satisfy (suits : Char → Bool) (expected : String) : Textual (satisfy suits expected) where
  meets _ := rfl
  pays _ := (Pays.of_reads fun _ => satisfy_reads suits expected).mono
    fun _ ⟨_, _, _, _, h⟩ => ⟨_, h⟩

theorem joined (hp : Textual p) (hq : Textual q) : Textual (seq p q .joining) where
  meets := hp.meets.seq hq.meets fun rules =>
    seq_congr (hp.pays rules) (hq.pays rules) fun _ _ => combiner_joining
  pays rules := (hp.pays rules).seq (hq.pays rules) fun _ _ _ => isText_joining

theorem alt (hp : Textual p) (hq : Textual q) : Textual (alt p q) where
  meets := hp.meets.alt hq.meets
  pays rules := (hp.pays rules).alt (hq.pays rules)

theorem many1 (hp : Textual p) : Textual (many1 p .joining) where
  meets := hp.meets.many1 fun rules =>
    many1_congr (hp.pays rules) (fun _ _ _ => isText_joining) fun _ _ => combiner_joining
  pays rules view := (hp.pays rules).repeatWithin (fun _ _ _ => isText_joining) (view.size + 1) view

theorem many (hp : Textual p) : Textual (many p .joining) := hp.many1.alt emptyText

theorem reword (hp : Textual p) (change : Complaint → Complaint) :
    Textual (reword p change) where
  meets := hp.meets.reword change
  pays rules := (hp.pays rules).reword change

end Textual

theorem textual_blanks : Textual blanks := (Textual.satisfy _ _).many

theorem textual_word (text : String) : Textual (word text) :=
  word_induction .emptyText (fun _ _ h => .joined (.satisfy _ _) h) (fun _ change h => h.reword change)
    text

theorem textual_furtherDigit (grouping : Bool) : Textual (furtherDigit grouping) := by
  cases grouping with
  | false => exact .satisfy _ _
  | true => exact .alt (.satisfy _ _) (.joined (.satisfy _ _) (.satisfy _ _))

theorem textual_literal (grouping : Bool) :
    Textual (eitherOrBoth (wholePattern grouping) fractionPattern .joining) := by
  have hwhole : Textual (wholePattern grouping) :=
    .joined (.satisfy _ _) (textual_furtherDigit grouping).many
  have hfraction : Textual fractionPattern :=
    .joined (.satisfy _ _) (Textual.satisfy _ _).many1
  exact (hwhole.joined hfraction).alt (hwhole.alt hfraction)

-- A numeral is a literal when it is turned into a number.
theorem meets_numeral (grouping : Bool) : (numeral grouping).Meets requirements := by
  rw [numeral_eq]
  refine ((textual_literal grouping).meets.mapValue fun rules => ?_).reword _
  refine mapValue_congr (.of_reads (@literal_reads rules grouping)) ?_
  rintro value ⟨text, hliteral, rfl⟩
  exact Requirements.changer_eq (fun _ => ⟨text, rfl, hliteral.plainDecimal⟩)
    fun changed _ => requirements_makes changed

theorem Built.meets {p : Pattern} (h : Built p) : p.Meets requirements := by
  induction h with
  | blanks => exact textual_blanks.meets
  | word text => exact (textual_word text).meets
  | numeral grouping => exact meets_numeral grouping
  | character _ | call _ | always _ | never _ => exact fun _ => rfl
  | notAhead _ ih => exact ih.notAhead
  | complete _ ih => exact ih.complete
  | alt _ _ ih ih' => exact ih.alt ih'
  | seq hcombine _ _ ih ih' => exact ih.seq ih' fun _ => by rw [combiner_of_ne_joining hcombine]
  | splitShortest hcombine _ _ ih ih' =>
    exact ih.splitShortest ih' (combiner_of_ne_joining hcombine)
  | mapValue hchange _ ih =>
    exact ih.mapValue fun _ => by rw [changer_of_ne_numberValue hchange]

theorem meets_body (grammar : Grammar) {rule : RuleName} {body : Pattern}
    (h : grammar.rules.body? rule = some body) : body.Meets requirements := by
  rcases grammar.built_body h with hbody | ⟨name, p, rfl, hp⟩
  · exact hbody.meets
  · exact hp.meets.remember name

-- A parse that stops where an assertion fails, or where a payload is not as required.
noncomputable def parseAsserting (grammar : Grammar) (text name : String) : Except Fault Match :=
  let view := View.whole (.of name text)
  let rules := (grammar.rules.requiring requirements).assertingWithin (grammar.rules.depthFor view)
  (((wholeText.requiring requirements).asserting rules view).run {}).map Prod.fst

theorem parseAsserting_eq_parse (grammar : Grammar) (text name : String) :
    grammar.parseAsserting text name = grammar.parse text name := by
  simp only [parseAsserting, Rules.assertingWithin_requiring fun _ _ => grammar.meets_body,
    Pattern.asserting_eq, built_wholeText.meets _]
  rfl

-- A failure of a whole text points into it.
theorem failure_points_into_text {grammar : Grammar} {text name : String} {result : Match}
    (h : grammar.parse text name = .ok result) (hf : result.failed = true) :
    0 ≤ result.errorAt ∧ result.errorAt ≤ result.rest.source.size := by
  obtain ⟨⟨found, state⟩, hrun, rfl⟩ : ∃ found,
      grammar.parseSource (.of name text) = .ok found ∧ found.1 = result := by
    unfold parse at h
    cases hsource : grammar.parseSource (.of name text) with
    | error fault => simp [hsource, Except.map] at h
    | ok found => exact ⟨found, rfl, by simpa [hsource, Except.map] using h⟩
  have hdisciplined : IsDisciplined (wholeText.parser (grammar.rules.runWithin
      (grammar.rules.depthFor (.whole (.of name text))))) :=
    wholeText.isDisciplined_pattern (Rules.isDisciplined_runWithin grammar.keepMatches_rules _)
      built_wholeText.changesMatches
  obtain ⟨hresult, -⟩ := hdisciplined (.whole (.of name text)) {} found state
    (ParseState.disciplined_of_empty rfl) hrun
  obtain ⟨hrest, hfirst, hlast⟩ := hresult.fails hf
  rw [hrest]
  exact ⟨hfirst, hlast⟩

theorem exists_parse (grammar : Grammar) (text name : String) :
    ∃ result, grammar.parse text name = .ok result := by
  obtain ⟨result, hplain, -⟩ :=
    (plain_wholeText_reads grammar (.whole (.of name text))).exists_pure
  exact ⟨result, parse_of_plain text name hplain⟩

theorem exists_diagnostic_of_parse {grammar : Grammar} {text name : String} {result : Match}
    (h : grammar.parse text name = .ok result) (hf : result.failed = true) (label : String) :
    ∃ words, result.diagnostic label = .ok words := by
  obtain ⟨hfirst, hlast⟩ := failure_points_into_text h hf
  exact Match.exists_diagnostic hf hfirst hlast label

-- Every text comes to a match, with all assertions made and all payloads as required. A failure can
-- be reported under any label.
theorem failures_are_matches (grammar : Grammar) (text name : String) :
    ∃ result, grammar.parseAsserting text name = .ok result ∧
      grammar.parse text name = .ok result ∧
      (result.failed = true → ∀ label, ∃ words, result.diagnostic label = .ok words) := by
  obtain ⟨result, hplain, -⟩ :=
    (plain_wholeText_reads grammar (.whole (.of name text))).exists_pure
  have hparse : grammar.parse text name = .ok result := parse_of_plain text name hplain
  refine ⟨result, (grammar.parseAsserting_eq_parse text name).trans hparse, hparse, fun hf => ?_⟩
  obtain ⟨hfirst, hlast⟩ := failure_points_into_text hparse hf
  exact Match.exists_diagnostic hf hfirst hlast

-- A text that ends too early is a failure, and it is reported.
theorem failures_are_matches_for_an_open_bracket :
    ∃ result, Grammar.parse ⟨["f"]⟩ "f(1" "" = .ok result ∧ result.failed = true ∧
      ∃ words, result.diagnostic "oh" = .ok words := by
  obtain ⟨result, -, hparse, hdiagnostic⟩ := failures_are_matches ⟨["f"]⟩ "f(1" ""
  have hfailed : (Grammar.parse ⟨["f"]⟩ "f(1" "").map Match.failed = .ok true := by decide +kernel
  rw [hparse] at hfailed
  have hf : result.failed = true := Except.ok.inj hfailed
  exact ⟨result, hparse, hf, hdiagnostic hf "oh"⟩

end Abacus.Grammar
