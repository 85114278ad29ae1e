import Abacus.Proofs.Grammar.Tokens

namespace Abacus.Grammar

open Abacus.Pattern Abacus.Parser

variable {rules : RuleName → Parser} {view : View} {text : List Char} {spelling : String}
  {operator other : Operator}

-- A text begins with a spelling, and with none that is longer, whatever the operator.
structure LongestSpelling (text : List Char) (spelling : String) : Prop where
  starts : spelling.toList <+: text
  longest : ∀ operator : Operator, ∀ other ∈ operator.spellings, other.toList <+: text →
    other.toList.length ≤ spelling.toList.length

-- A longer spelling in the same place would extend the shorter one.
theorem standsAt_iff_longest : StandsAt spelling text ↔ LongestSpelling text spelling := by
  constructor
  · rintro ⟨hstarts, hnone⟩
    refine ⟨hstarts, fun operator other hother hstarts' => ?_⟩
    by_contra hlonger
    have hlt : spelling.toList.length < other.toList.length := by omega
    have hbegins := List.prefix_of_prefix_length_le hstarts hstarts' (Nat.le_of_lt hlt)
    exact hnone other (mem_longerSpellings.mpr ⟨mem_allSpellings hother, hlt, hbegins⟩) hstarts'
  · rintro ⟨hstarts, hlongest⟩
    refine ⟨hstarts, fun longer hlonger hstarts' => ?_⟩
    obtain ⟨hmem, hlt, -⟩ := mem_longerSpellings.mp hlonger
    obtain ⟨operator, -, hmem⟩ := List.mem_flatMap.mp hmem
    have hle := hlongest operator longer hmem hstarts'
    omega

theorem operatorPattern_fails_of_no_longest
    (h : ¬∃ spelling ∈ operator.spellings, LongestSpelling (skipSpaces view.chars) spelling) :
    Fails ((operatorPattern operator).parser rules) view :=
  operatorPattern_fails fun spelling hmem hstands =>
    h ⟨spelling, hmem, standsAt_iff_longest.mp hstands⟩

-- Two operators in one place have the same longest spelling, which belongs to one operator.
theorem LongestSpelling.operator_eq {spelling' : String} (hmem : spelling ∈ operator.spellings)
    (hmem' : spelling' ∈ other.spellings) (h : LongestSpelling text spelling)
    (h' : LongestSpelling text spelling') : operator = other := by
  have hsame : spelling = spelling' := (standsAt_iff_longest.mpr h).unique
    (standsAt_iff_longest.mpr h') (mem_allSpellings hmem) (mem_allSpellings hmem')
  exact operator_unique hmem (hsame ▸ hmem')

-- No spelling of a multiplication is as long as that of a power.
theorem not_longest_of_power (h : "**".toList <+: text) :
    ¬∃ spelling ∈ Operator.multiply.spellings, LongestSpelling text spelling := by
  rintro ⟨spelling, hmem, hlongest⟩
  have hpower : LongestSpelling text "**" := by
    apply standsAt_iff_longest.mp
    refine ⟨h, fun longer hlonger => ?_⟩
    have hnone : longerSpellings "**" = [] := by decide
    rw [hnone] at hlonger
    cases hlonger
  have hsame : Operator.multiply = Operator.power :=
    hlongest.operator_eq hmem (List.mem_cons_of_mem _ List.mem_cons_self) hpower
  cases hsame

-- What an operator makes of a view. It is found where the longest spelling behind the spaces is one of
-- its own, and all the spaces on both sides are taken with it.
structure OperatorResult (operator : Operator) (view : View) (result : Match) : Prop where
  found_iff : result.failed = false ↔
    ∃ spelling ∈ operator.spellings, LongestSpelling (skipSpaces view.chars) spelling
  taken : result.failed = false → ∃ spelling ∈ operator.spellings,
    LongestSpelling (skipSpaces view.chars) spelling ∧
    result = .taken view ((view.chars.takeWhile isSpace).length + (spelling.toList.length +
      ((behindSpelling view.chars spelling).takeWhile isSpace).length)) (.str spelling)

theorem exists_operatorResult (operator : Operator) (rules : RuleName → Parser) (view : View) :
    ∃ result, (operatorPattern operator).parser rules view = pure result ∧
      OperatorResult operator view result := by
  by_cases h : ∃ spelling ∈ operator.spellings, LongestSpelling (skipSpaces view.chars) spelling
  · obtain ⟨spelling, hmem, hlongest⟩ := h
    have htakes : Takes ((operatorPattern operator).parser rules) view _ _ :=
      operatorPattern_takes_standing hmem (standsAt_iff_longest.mpr hlongest)
    exact ⟨_, htakes.2, iff_of_true htakes.failed_eq ⟨spelling, hmem, hlongest⟩,
      fun _ => ⟨spelling, hmem, hlongest, rfl⟩⟩
  · obtain ⟨result, hf, hresult⟩ : Fails ((operatorPattern operator).parser rules) view :=
      operatorPattern_fails_of_no_longest h
    have hnotOk : ¬result.failed = false := by simp [hf]
    exact ⟨result, hresult, iff_of_false hnotOk h, fun hok => absurd hok hnotOk⟩

-- Whatever the view, it has a longest spelling of one operator at most, and that one is read. Where
-- a power is spelled with two stars, none of them is a multiplication.
theorem operators_are_longest_spellings (rules : RuleName → Parser) (view : View) :
    (∀ operator : Operator, ∃ result, (operatorPattern operator).parser rules view = pure result ∧
      OperatorResult operator view result) ∧
      (∀ (operator other : Operator) (result result' : Match),
        (operatorPattern operator).parser rules view = pure result →
        (operatorPattern other).parser rules view = pure result' →
        result.failed = false → result'.failed = false → operator = other) ∧
      ("**".toList <+: skipSpaces view.chars →
        Fails ((operatorPattern .multiply).parser rules) view) ∧
      ("**".toList <+: view.chars → Fails ((spelledOperator "*").parser rules) view) := by
  refine ⟨fun operator => exists_operatorResult operator rules view, ?_, ?_, ?_⟩
  · intro operator other result result' hresult hresult' hok hok'
    obtain ⟨first, hfirst, h⟩ := exists_operatorResult operator rules view
    obtain ⟨second, hsecond, h'⟩ := exists_operatorResult other rules view
    obtain rfl := ParseM.pure_inj (hresult.symm.trans hfirst)
    obtain rfl := ParseM.pure_inj (hresult'.symm.trans hsecond)
    obtain ⟨spelling, hmem, hlongest⟩ := h.found_iff.mp hok
    obtain ⟨spelling', hmem', hlongest'⟩ := h'.found_iff.mp hok'
    exact hlongest.operator_eq hmem hmem' hlongest'
  · exact fun hpower => operatorPattern_fails_of_no_longest (not_longest_of_power hpower)
  · refine fun hpower => spelledOperator_fails fun hstands => ?_
    exact not_longest_of_power hpower
      ⟨"*", List.mem_cons_self, standsAt_iff_longest.mp hstands⟩

-- The power is read with the spaces around it, and there is no multiplication in its place.
theorem operators_are_longest_spellings_around_a_power :
    (operatorPattern .power).parser (fun _ => stalled) (.ofText " **\t2" "") =
        pure (.taken (.ofText " **\t2" "") 4 (.str "**")) ∧
      Fails ((operatorPattern .multiply).parser fun _ => stalled) (.ofText " **\t2" "") ∧
      Fails ((spelledOperator "*").parser fun _ => stalled) ((View.ofText " **\t2" "").drop 1) := by
  have hchars : (View.ofText " **\t2" "").chars = " **\t2".toList := by decide +kernel
  have hbehind : ((View.ofText " **\t2" "").drop 1).chars = "**\t2".toList := by decide +kernel
  obtain ⟨hresults, -, hmultiply, -⟩ :=
    operators_are_longest_spellings (fun _ => stalled) (.ofText " **\t2" "")
  obtain ⟨-, -, -, hstar⟩ :=
    operators_are_longest_spellings (fun _ => stalled) ((View.ofText " **\t2" "").drop 1)
  rw [hchars] at hmultiply
  rw [hbehind] at hstar
  refine ⟨?_, hmultiply (by decide), hstar (by decide)⟩
  obtain ⟨result, hresult, h⟩ := hresults .power
  have hstands : StandsAt "**" (skipSpaces " **\t2".toList) := ⟨by decide, by decide⟩
  have hok : result.failed = false := h.found_iff.mpr
    ⟨"**", by decide, hchars ▸ standsAt_iff_longest.mp hstands⟩
  obtain ⟨spelling, hmem, hlongest, htaken⟩ := h.taken hok
  rw [hchars] at hlongest htaken
  obtain rfl : spelling = "**" := (standsAt_iff_longest.mpr hlongest).unique hstands
    (mem_allSpellings hmem) (by decide)
  rw [hresult, htaken]
  rfl

end Abacus.Grammar
