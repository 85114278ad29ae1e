import Abacus.Proofs.Grammar.Descent
import Abacus.Proofs.Grammar.Numerals

namespace Abacus

namespace Parser

-- Alternatives that read do not fail in the place of the last one.
theorem firstOf_eq_last {ps : List Parser} {q : Parser} {view : View} {result : Match}
    {described : List Char → Value → Prop} (h : ∀ p ∈ ps, p.Reads view described)
    (hresult : firstOf (ps ++ [q]) view = pure result) (hf : result.failed = true) :
    q view = pure result := by
  induction ps with
  | nil => exact hresult
  | cons p ps ih =>
    obtain ⟨hp, hps⟩ := List.forall_mem_cons.mp h
    have halt : firstOf (p :: (ps ++ [q])) = alt p (firstOf (ps ++ [q])) := by cases ps <;> rfl
    rw [List.cons_append, halt] at hresult
    rcases hp with ⟨first, hfirst, hp⟩ | ⟨count, value, -, hp, -⟩
    · rw [alt_eq_right hp hfirst] at hresult
      exact ih hps hresult
    · rw [alt_eq_left hp.2 hp.failed_eq] at hresult
      rw [← ParseM.pure_inj hresult, hp.failed_eq] at hf
      cases hf

end Parser

namespace Grammar

open Abacus.Pattern Abacus.Parser

variable {grammar : Grammar} {rules : RuleName → Parser} {view : View} {text name : String}

-- The first offset, from this one on, where no space stands.
def solidFrom (chars : List Char) (offset : Nat) : Nat :=
  offset + ((chars.drop offset).takeWhile isSpace).length

-- Where a number is missed that should begin at an offset.
def missedAt (chars : List Char) (offset : Nat) : Nat :=
  if chars[offset]? = some '.' then offset + 1 else offset

def missedNumber (chars : List Char) (offset : Nat) : String :=
  let reason := match chars[missedAt chars offset]? with
    | none => "reached end of input string"
    | some c =>
        Text.quoted (String.singleton c) ++ " does not match expected " ++
          if missedAt chars offset = offset then "character '.'" else "one of '0123456789'"
  reason ++ " (expected a number)"

theorem size_ofText (text name : String) : (View.ofText text name).size = text.length := by
  rw [← View.length_chars, View.ofText, View.chars_whole, Source.chars_of]
  rfl

theorem chars_drop_ofText (text name : String) (offset : Nat) :
    ((View.ofText text name).drop offset).chars = text.toList.drop offset := by
  rw [View.chars_drop, View.ofText, View.chars_whole, Source.chars_of]

theorem pos_drop_ofText {offset : Nat} (h : offset ≤ text.length) :
    ((View.ofText text name).drop offset).pos = offset := by
  rw [View.pos_drop (by rw [size_ofText]; exact h)]
  exact Nat.zero_add offset

theorem solidFrom_le {offset : Nat} (h : offset ≤ text.length) :
    solidFrom text.toList offset ≤ text.length := by
  have hle := (List.takeWhile_prefix isSpace (l := text.toList.drop offset)).length_le
  rw [List.length_drop] at hle
  have hlength : text.toList.length = text.length := rfl
  unfold solidFrom
  omega

theorem missedAt_le {offset : Nat} (h : offset ≤ text.length) :
    missedAt text.toList offset ≤ text.length := by
  unfold missedAt
  split
  · next hpoint =>
    obtain ⟨hlt, -⟩ := List.getElem?_eq_some_iff.mp hpoint
    exact hlt
  · exact h

-- A failed expression fails as the number does.
theorem expression_eq_numeral {depth : Nat} {result : Match}
    (hdepth : nesting .expression view < depth)
    (hresult : grammar.plainRules.runWithin depth .expression view = pure result)
    (hf : result.failed = true) :
    ¬BeginsLiteral view.chars ∧
      ∀ rules : RuleName → Parser, (numeral true).parser rules view = pure result := by
  obtain ⟨depth, rfl⟩ : ∃ n, depth = n + 1 := ⟨depth - 1, by omega⟩
  have hsmaller : ∀ rule ∈ ruleNames, ∀ view' : View, view'.size < view.size →
      Reads (grammar.plainRules.runWithin depth rule) view' (Derives grammar.names rule) :=
    fun rule hrule view' hlt => plainRules_reads grammar hrule
      (Nat.lt_of_lt_of_le (nesting_lt_of_size_lt rule hlt) (Nat.le_of_lt_succ hdepth))
  have hcompounds : ∀ p ∈ (grammar.compounds .expression).map
      (parser (grammar.plainRules.runWithin depth)), Reads p view (Derives grammar.names _) :=
    List.forall_mem_map.mpr (grammar.compounds_read rfl (hsmaller .expression (by decide))
      (hsmaller .arguments (by decide)))
  have hlast : (numeral true).parser (grammar.plainRules.runWithin depth) view = pure result := by
    refine firstOf_eq_last hcompounds ?_ hf
    rw [← hresult]
    change _ = (firstOf (grammar.compounds .expression ++ [numeral true])).parser _ view
    rw [parser_firstOf, List.map_append]
    rfl
  by_cases hbegins : BeginsLiteral view.chars
  · obtain ⟨_, _, -, -, htakes⟩ :=
      numeral_takes_of_begins (grammar.plainRules.runWithin depth) true hbegins
    rw [← ParseM.pure_inj (htakes.2.symm.trans hlast), htakes.failed_eq] at hf
    cases hf
  · refine ⟨hbegins, fun rules => ?_⟩
    rw [← ParseM.pure_inj ((numeral_refuses hbegins).symm.trans hlast)]
    exact numeral_refuses hbegins

theorem refusedAt_drop_ofText (text name : String) (offset : Nat) :
    refusedAt ((View.ofText text name).drop offset) =
      (View.ofText text name).drop (missedAt text.toList offset) := by
  rw [refusedAt, missedAt, chars_drop_ofText, List.head?_drop]
  split
  · exact View.drop_drop _ _ _
  · rfl

theorem text_lacking (expected : String) (chars : List Char) (offset : Nat) :
    (lacking expected (chars.drop offset)).text = match chars[offset]? with
      | none => "reached end of input string"
      | some c => Text.quoted (String.singleton c) ++ " does not match expected " ++ expected := by
  rw [← List.head?_drop]
  cases chars.drop offset with
  | nil => rfl
  | cons c rest => rfl

-- Where a number is missed, and what is said there.
theorem numeral_misses {offset : Nat} {result : Match} (hoffset : offset ≤ text.length)
    (hbegins : ¬BeginsLiteral ((View.ofText text name).drop offset).chars)
    (hresult : (numeral true).parser rules ((View.ofText text name).drop offset) = pure result) :
    result.errorAt = missedAt text.toList offset ∧
      result.complaint.text = missedNumber text.toList offset := by
  obtain rfl := ParseM.pure_inj ((numeral_refuses hbegins).symm.trans hresult)
  rw [refusedAt_drop_ofText]
  refine ⟨congrArg Int.ofNat (pos_drop_ofText (missedAt_le hoffset)), ?_⟩
  have hexpected : expectedInNumeral ((View.ofText text name).drop offset) =
      if missedAt text.toList offset = offset then "character '.'" else "one of '0123456789'" := by
    rw [expectedInNumeral, missedAt, chars_drop_ofText, List.head?_drop]
    split <;> simp
  change "" ++ (lacking _ ((View.ofText text name).drop _).chars).text ++ _ = _
  rw [hexpected, chars_drop_ofText, text_lacking, String.empty_append]
  rfl

theorem blanks_takes_drop (rules : RuleName → Parser) (text name : String) (offset : Nat) :
    ∃ count value, offset + count = solidFrom text.toList offset ∧
      Takes (blanks.parser rules) ((View.ofText text name).drop offset) count value := by
  have htakes := blanks_takes_takeWhile rules ((View.ofText text name).drop offset)
  rw [chars_drop_ofText] at htakes
  exact ⟨_, _, rfl, htakes⟩

-- An expression between spaces fails as the expression does, and it takes the spaces too.
theorem wholeText_of_failed {inner : Match}
    (hinner : rules .expression ((View.ofText text name).drop (solidFrom text.toList 0)) =
      pure inner) (hf : inner.failed = true) :
    wholeText.parser rules (.ofText text name) = pure (inner.rebase (.ofText text name)) := by
  obtain ⟨count, value, hcount, hblanks⟩ := blanks_takes_drop rules text name 0
  rw [View.drop_zero] at hblanks
  rw [← hcount, Nat.zero_add] at hinner
  have hback : (seq (call .expression) blanks .first).parser rules
      ((View.ofText text name).drop count) = _ := seq_eq_rebase hinner hf
  have hparts : (sequenceKeeping [blanks, call .expression, blanks] 1).parser rules
      (.ofText text name) = _ := seq_eq_rebase_right hblanks.2 hblanks.failed_eq hback rfl
  exact mapValue_eq_self (complete_eq_self hparts rfl) rfl

theorem spacedExpression_takes {count : Nat} {value : Value}
    (h : Takes (rules .expression) ((View.ofText text name).drop (solidFrom text.toList 0)) count
      value) :
    Takes ((sequenceKeeping [blanks, call .expression, blanks] 1).parser rules)
      (.ofText text name) (solidFrom text.toList (solidFrom text.toList 0 + count)) value := by
  obtain ⟨lead, _, hlead, hleads⟩ := blanks_takes_drop rules text name 0
  obtain ⟨trail, _, htrail, htrails⟩ :=
    blanks_takes_drop rules text name (solidFrom text.toList 0 + count)
  rw [← View.drop_drop] at htrails
  have hback := seq_first_takes h htrails
  rw [View.drop_zero] at hleads
  rw [← htrail, ← hlead, Nat.zero_add, Nat.add_assoc]
  rw [← hlead, Nat.zero_add] at hback
  exact seq_second_takes hleads hback

theorem wholeText_of_takes {count : Nat} {value : Value} {result : Match}
    (h : Takes (rules .expression) ((View.ofText text name).drop (solidFrom text.toList 0)) count
      value)
    (hle : solidFrom text.toList (solidFrom text.toList 0 + count) ≤ text.length)
    (hresult : wholeText.parser rules (.ofText text name) = pure result)
    (hf : result.failed = true) :
    solidFrom text.toList (solidFrom text.toList 0 + count) < text.length ∧
      result = .failureAt (.ofText text name) (.unconsumed (String.ofList
        (text.toList.drop (solidFrom text.toList (solidFrom text.toList 0 + count)))))
        (solidFrom text.toList (solidFrom text.toList 0 + count)) := by
  have hparts := spacedExpression_takes h
  generalize solidFrom text.toList (solidFrom text.toList 0 + count) = err at hparts hle ⊢
  have hsize : (View.ofText text name).size = text.length := size_ofText text name
  rcases Nat.eq_or_lt_of_le hle with heq | hlt
  · rw [← hsize] at heq
    subst heq
    have htakes : Takes (wholeText.parser rules) (.ofText text name) _ (.root value) :=
      mapValue_takes (complete_takes hparts) rfl rfl
    rw [← ParseM.pure_inj (htakes.2.symm.trans hresult), htakes.failed_eq] at hf
    cases hf
  · have hfails : wholeText.parser rules (.ofText text name) = _ :=
      mapValue_eq_self (complete_eq_unconsumed hparts (hsize ▸ hlt)) rfl
    refine ⟨hlt, ?_⟩
    rw [← ParseM.pure_inj (hfails.symm.trans hresult), View.text, chars_drop_ofText,
      pos_drop_ofText hle]

-- A rejected text is complained about in one of two ways, from its beginning and with all of it left.
-- Behind its first spaces there is no expression, as there is no number; or there is one, and behind
-- it and its spaces something else. No other alternative of an expression is heard of.
theorem rejections_come_in_two_shapes (grammar : Grammar) (text name : String) :
    ∃ result inner state, grammar.parse text name = .ok result ∧
      (grammar.rules.run (call .expression)
        ((View.ofText text name).drop (solidFrom text.toList 0))).run {} = .ok (inner, state) ∧
      (result.failed = true → result.start = 0 ∧ result.rest = .ofText text name ∧
        (inner.failed = true ∧
            (∀ rules, (numeral true).parser rules
              ((View.ofText text name).drop (solidFrom text.toList 0)) = pure inner) ∧
            result.errorAt = missedAt text.toList (solidFrom text.toList 0) ∧
            result.complaint.text = missedNumber text.toList (solidFrom text.toList 0) ∨
          inner.failed = false ∧ ∃ err < text.length, err = solidFrom text.toList inner.rest.pos ∧
            result.errorAt = err ∧ result.complaint.text =
              "unconsumed input: " ++ Text.quoted (String.ofList (text.toList.drop err)))) := by
  let view := (View.ofText text name).drop (solidFrom text.toList 0)
  have hfirst : solidFrom text.toList 0 ≤ text.length := solidFrom_le (Nat.zero_le _)
  have hsize : view.size = text.length - solidFrom text.toList 0 := by
    rw [View.size_drop, size_ofText]
  have hreads : ∀ depth, nesting .expression view < depth →
      Reads (grammar.plainRules.runWithin depth .expression) view
        (Derives grammar.names .expression) :=
    fun depth hdepth => plainRules_reads grammar (by decide) hdepth
  obtain ⟨inner, hinner⟩ := exists_plain_result (p := call .expression) rfl hreads
  have htruthful : grammar.rules.Truthful (call .expression) ({} : ParseState).memo :=
    grammar.rules.truthful_empty _
  obtain ⟨state, hrun, -⟩ := run_of_plain (p := call .expression) rfl
    (hinner _ (nesting_lt_depthFor grammar .expression (Nat.le_refl _))) htruthful
  obtain ⟨result, hresult, -⟩ :=
    (plain_wholeText_reads grammar (.whole (.of name text))).exists_pure
  refine ⟨result, inner, state, parse_of_plain text name hresult, hrun, fun hf => ?_⟩
  have hdepth : nesting .expression view < grammar.rules.depthFor (.ofText text name) :=
    nesting_lt_depthFor grammar .expression (by rw [View.size_drop]; omega)
  cases hinnerFailed : inner.failed with
  | true =>
    obtain rfl := ParseM.pure_inj
      (hresult.symm.trans (wholeText_of_failed (hinner _ hdepth) hinnerFailed))
    obtain ⟨hbegins, hnumeral⟩ := expression_eq_numeral hdepth (hinner _ hdepth) hinnerFailed
    obtain ⟨herr, hcomplaint⟩ := numeral_misses hfirst hbegins (hnumeral fun _ => stalled)
    exact ⟨rfl, rfl, .inl ⟨rfl, hnumeral, herr, hcomplaint⟩⟩
  | false =>
    rcases hreads _ hdepth with ⟨other, hother, hfails⟩ | ⟨count, value, hcount, htakes, -⟩
    · rw [← ParseM.pure_inj (hfails.symm.trans (hinner _ hdepth)), hother] at hinnerFailed
      cases hinnerFailed
    · obtain rfl := ParseM.pure_inj (htakes.2.symm.trans (hinner _ hdepth))
      have hend : solidFrom text.toList 0 + count ≤ text.length := by omega
      have hpos : (Match.taken view count value).rest.pos = solidFrom text.toList 0 + count := by
        change (view.drop count).pos = _
        rw [View.drop_drop, pos_drop_ofText hend]
      obtain ⟨hlt, rfl⟩ := wholeText_of_takes htakes (solidFrom_le hend) hresult hf
      exact ⟨rfl, rfl, .inr ⟨rfl, _, hlt, by rw [hpos], rfl, rfl⟩⟩

-- There is a point, but no digit is behind it.
theorem rejections_come_in_two_shapes_behind_a_point :
    ∃ result, Grammar.parse ⟨["x"]⟩ " .x" "" = .ok result ∧ result.failed = true ∧
      result.errorAt = 2 ∧ result.complaint.text =
        "'x' does not match expected one of '0123456789' (expected a number)" := by
  obtain ⟨result, inner, state, hparse, hrun, hrejected⟩ :=
    rejections_come_in_two_shapes ⟨["x"]⟩ " .x" ""
  have hf : (Grammar.parse ⟨["x"]⟩ " .x" "").map Match.failed = .ok true := by decide +kernel
  rw [hparse] at hf
  have hinner : (((Grammar.rules ⟨["x"]⟩).run (call .expression)
      ((View.ofText " .x" "").drop (solidFrom " .x".toList 0))).run {}).map
        (fun after => after.1.failed) = .ok true := by
    decide +kernel
  rw [hrun] at hinner
  obtain ⟨-, -, ⟨-, -, herr, hcomplaint⟩ | ⟨hok, -⟩⟩ := hrejected (Except.ok.inj hf)
  · refine ⟨result, hparse, Except.ok.inj hf, herr, hcomplaint.trans ?_⟩
    decide +kernel
  · cases (Except.ok.inj hinner).symm.trans hok

end Grammar

end Abacus
