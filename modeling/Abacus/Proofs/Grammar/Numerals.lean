import Abacus.Proofs.Grammar.Literals
import Abacus.Proofs.Parsing.Rows

namespace Abacus.Grammar

open Abacus.Pattern Abacus.Parser

variable {rules : RuleName → Parser} {view : View} {grouping : Bool}

theorem sortedChars_digits : sortedChars "0123456789".toList = "0123456789".toList := by
  have hsame : "0123456789".toList.eraseDups = "0123456789".toList := by decide
  rw [sortedChars, hsame]
  exact List.mergeSort_of_pairwise (by decide)

theorem digit_answers (rules : RuleName → Parser) :
    Answers (digit.parser rules)
      (characterMatch (fun c => "0123456789".toList.contains c) "one of '0123456789'") := by
  have hexpected : "one of " ++ Text.quoted (String.ofList (sortedChars "0123456789".toList)) =
      "one of '0123456789'" := by
    rw [sortedChars_digits]
    decide +kernel
  rw [← hexpected]
  exact satisfy_answers _ _

theorem expectedCharacter_point : expectedCharacter '.' = "character '.'" := by decide +kernel

-- Where a numeral is given up: behind a point, or else at once.
def refusedAt (view : View) : View := if view.chars.head? = some '.' then view.drop 1 else view

def expectedInNumeral (view : View) : String :=
  if view.chars.head? = some '.' then "one of '0123456789'" else "character '.'"

-- A point was found, or it is what is missed, as the alternative that is tried last begins with it.
theorem fractionPattern_refuses (h : ¬BeginsLiteral view.chars) :
    fractionPattern.parser rules view =
      pure (.failureAt view (lacking (expectedInNumeral view) (refusedAt view).chars)
        (refusedAt view).pos) := by
  by_cases hpoint : view.chars.head? = some '.'
  · obtain ⟨back, hback⟩ := List.head?_eq_some_iff.mp hpoint
    have htakes : Takes (point.parser rules) view 1 _ := character_takes hback
    have hnone : characterMatch (fun c => "0123456789".toList.contains c) "one of '0123456789'"
        (view.drop 1) = .failure (view.drop 1) (lacking "one of '0123456789'" (view.drop 1).chars) := by
      apply characterMatch_eq_failure
      intro c hc
      rw [View.chars_drop_one hback] at hc
      obtain ⟨back', rfl⟩ := List.head?_eq_some_iff.mp hc
      rw [contains_digits, Bool.eq_false_iff]
      exact fun hdigit => h (.inr ⟨c, back', hback, hdigit⟩)
    have hmany1 : (many1 digit .joining).parser rules (view.drop 1) = _ :=
      (many1_of_failed (digit_answers rules) (by rw [hnone]; rfl)).1
    rw [hnone] at hmany1
    rw [refusedAt, expectedInNumeral, if_pos hpoint, if_pos hpoint]
    exact seq_eq_rebase_right htakes.2 htakes.failed_eq hmany1 rfl
  · have hfails : point.parser rules view = _ := character_refuses hpoint
    rw [expectedCharacter_point] at hfails
    rw [refusedAt, expectedInNumeral, if_neg hpoint, if_neg hpoint]
    exact seq_eq_rebase hfails rfl

theorem numeral_refuses (h : ¬BeginsLiteral view.chars) :
    (numeral grouping).parser rules view =
      pure (.failureAt view (.framed ""
        (lacking (expectedInNumeral view) (refusedAt view).chars) " (expected a number)")
        (refusedAt view).pos) := by
  have hwhole : Fails ((wholePattern grouping).parser rules) view := by
    apply wholePattern_fails
    intro c hc
    obtain ⟨back, hback⟩ := List.head?_eq_some_iff.mp hc
    rw [Bool.eq_false_iff]
    exact fun hdigit => h (.inl ⟨c, back, hback, hdigit⟩)
  obtain ⟨first, hfirst, hboth⟩ : Fails ((seq (wholePattern grouping) fractionPattern
      .joining).parser rules) view := seq_fails_left hwhole
  obtain ⟨second, hsecond, hwhole⟩ := hwhole
  have hliteral : (eitherOrBoth (wholePattern grouping) fractionPattern .joining).parser rules view =
      _ := (alt_eq_right hboth hfirst).trans
        ((alt_eq_right hwhole hsecond).trans (fractionPattern_refuses h))
  rw [numeral_eq]
  exact reword_eq (mapValue_eq_self hliteral rfl) rfl

theorem numeral_takes_of_begins (rules : RuleName → Parser) (grouping : Bool)
    (h : BeginsLiteral view.chars) :
    ∃ text x, LongestLiteral grouping view.chars text ∧ literalValue? text = some x ∧
      Takes ((numeral grouping).parser rules) view text.length (.number x) := by
  obtain ⟨text, hstarts, hliteral⟩ := h.exists_literal grouping
  obtain ⟨longest, hlongest⟩ := exists_longestLiteral hliteral hstarts
  obtain ⟨x, hx⟩ := hlongest.literal.exists_value
  exact ⟨longest, x, hlongest, hx, numeral_takes_longest hlongest hx⟩

theorem not_beginsLiteral_iff {chars : List Char} : ¬BeginsLiteral chars ↔ chars = [] ∨
    (∀ c back, chars = c :: back → c.isDigit = false) ∧
      ∀ c back, chars = '.' :: c :: back → c.isDigit = false := by
  constructor
  · intro h
    refine .inr ⟨fun c back hchars => ?_, fun c back hchars => ?_⟩
    · exact Bool.eq_false_iff.mpr fun hc => h (.inl ⟨c, back, hchars, hc⟩)
    · exact Bool.eq_false_iff.mpr fun hc => h (.inr ⟨c, back, hchars, hc⟩)
  · rintro (rfl | ⟨hdigit, hpoint⟩) (⟨c, back, hchars, hc⟩ | ⟨c, back, hchars, hc⟩)
    · cases hchars
    · cases hchars
    · rw [hdigit c back hchars] at hc
      cases hc
    · rw [hpoint c back hchars] at hc
      cases hc

theorem pos_refusedAt (view : View) : (refusedAt view).pos =
    if view.chars.head? = some '.' then view.pos + 1 else view.pos := by
  unfold refusedAt
  split
  · next hpoint =>
    obtain ⟨back, hback⟩ := List.head?_eq_some_iff.mp hpoint
    have hsize : 0 < view.size := by
      rw [← View.length_chars, hback]
      exact Nat.succ_pos _
    exact View.pos_drop hsize
  · rfl

theorem PlainDecimal.literal {text : List Char} (h : PlainDecimal text) (grouping : Bool) :
    Literal grouping text := by
  cases h with
  | whole hdigits => exact .whole hdigits.whole
  | mixed hdigits hdigits' => exact .mixed hdigits.whole hdigits'
  | fraction hdigits => exact .fraction hdigits

-- A numeral takes the longest literal that its view begins with, for the number that the literal is
-- without its commas. It fails where there is none, at the beginning of the view or behind a point.
-- Literals that are alike but for their commas have one value, and without them it is a literal still.
theorem numerals_are_longest_literals (grouping : Bool) :
    (∀ (rules : RuleName → Parser) (view : View), ∃ result,
      (numeral grouping).parser rules view = pure result ∧
      (result.failed = false ↔ ∃ text, text <+: view.chars ∧ Literal grouping text) ∧
      (result.failed = false → ∃ text x, LongestLiteral grouping view.chars text ∧
        literalValue? text = some x ∧ result = .taken view text.length (.number x)) ∧
      (result.failed = true ↔ view.chars = [] ∨
        (∀ c back, view.chars = c :: back → c.isDigit = false) ∧
          ∀ c back, view.chars = '.' :: c :: back → c.isDigit = false) ∧
      (result.failed = true → result.rest = view ∧ result.start = view.pos ∧
        result.errorAt = (if view.chars.head? = some '.' then view.pos + 1 else view.pos : Nat) ∧
        ∃ reason, result.complaint.text = reason ++ " (expected a number)")) ∧
      (∀ text, Literal grouping text → ∀ grouping', Literal grouping' (text.filter (· ≠ ','))) ∧
      ∀ (grouping' : Bool) (rules rules' : RuleName → Parser) (view view' : View) text text',
        LongestLiteral grouping view.chars text → LongestLiteral grouping' view'.chars text' →
        text.filter (· ≠ ',') = text'.filter (· ≠ ',') → ∃ result result',
          (numeral grouping).parser rules view = pure result ∧
          (numeral grouping').parser rules' view' = pure result' ∧
          result.failed = false ∧ result'.failed = false ∧ result.value = result'.value := by
  refine ⟨fun rules view => ?_, fun text h => h.plainDecimal.literal, ?_⟩
  · by_cases hbegins : BeginsLiteral view.chars
    · obtain ⟨text, x, hlongest, hx, htakes⟩ := numeral_takes_of_begins rules grouping hbegins
      refine ⟨_, htakes.2, ?_, fun _ => ⟨text, x, hlongest, hx, rfl⟩, ?_, fun hf => by cases hf⟩
      · exact ⟨fun _ => ⟨text, hlongest.starts, hlongest.literal⟩, fun _ => rfl⟩
      · refine ⟨fun hf => (by cases hf), fun hnone => ?_⟩
        exact absurd hbegins (not_beginsLiteral_iff.mpr hnone)
    · refine ⟨_, numeral_refuses hbegins, ?_, fun hok => (by cases hok), ?_, fun _ => ?_⟩
      · refine ⟨fun hok => (by cases hok), ?_⟩
        rintro ⟨text, hstarts, hliteral⟩
        exact absurd (hliteral.begins hstarts) hbegins
      · exact ⟨fun _ => not_beginsLiteral_iff.mp hbegins, fun _ => rfl⟩
      · exact ⟨rfl, rfl, congrArg Int.ofNat (pos_refusedAt view), _, rfl⟩
  · intro grouping' rules rules' view view' text text' h h' hsame
    obtain ⟨x, hx⟩ := h.literal.exists_value
    have hx' : literalValue? text' = some x := by
      rw [literalValue?, ← hsame]
      exact hx
    exact ⟨_, _, (numeral_takes_longest h hx).2, (numeral_takes_longest h' hx').2, rfl, rfl, rfl⟩

-- Neither of the commas behind the digits belongs to the number.
theorem numerals_are_longest_literals_before_commas :
    ∃ result x, (numeral true).parser (fun _ => stalled) (.ofText "1,234.5,," "") = pure result ∧
      result.rest.pos = 7 ∧ literalValue? "1234.5".toList = some x ∧ result.value = .number x := by
  obtain ⟨hnumerals, -, -⟩ := numerals_are_longest_literals true
  obtain ⟨result, hresult, -, hliteral, -⟩ := hnumerals (fun _ => stalled) (.ofText "1,234.5,," "")
  have hrun : (((numeral true).parser (fun _ => stalled) (.ofText "1,234.5,," "")).run {}).map
      (fun after => (after.1.failed, after.1.rest.pos)) = .ok (false, 7) := by
    decide +kernel
  rw [hresult] at hrun
  obtain ⟨hok, hpos⟩ := Prod.mk.inj (Except.ok.inj hrun)
  obtain ⟨text, x, hlongest, hx, htaken⟩ := hliteral hok
  have hlength : text.length = 7 := by
    rw [htaken] at hpos
    change min (0 + text.length) 9 = 7 at hpos
    omega
  obtain rfl : text = "1,234.5".toList := by
    rw [List.prefix_iff_eq_take.mp hlongest.starts, hlength]
    rfl
  exact ⟨result, x, hresult, hpos, hx, htaken ▸ rfl⟩

end Abacus.Grammar
