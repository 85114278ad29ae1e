import Abacus.Proofs.Grammar.Readings
import Abacus.Proofs.Grammar.Soundness

namespace Abacus.Grammar

open Abacus.Pattern Abacus.Parser

variable {rules : RuleName → Parser} {names : List String} {view : View} {rule : RuleName}
  {grouping : Bool} {text after : List Char} {first value : Value} {rest : List (Operator × Value)}

-- A derived text is a phrase behind spaces, of the kind that its rule asks for.
structure IsFlat (names : List String) (rule : RuleName) (text : List Char) : Prop where
  chain : ∀ grouping, grouping? rule = some grouping → ∃ gap body first rest, text = gap ++ body ∧
    Spaces gap ∧ Spells names grouping (.chain first rest) body
  arguments : rule = .arguments → ∃ gap body list, text = gap ++ body ∧ Spaces gap ∧
    Value.isArgument list = true ∧ Spells names false (.arguments list) body

theorem isFlat_of_chain {gap : List Char} (hrule : grouping? rule = some grouping)
    (hgap : Spaces gap) (h : Spells names grouping (.chain first rest) text) :
    IsFlat names rule (gap ++ text) where
  chain := by
    intro grouping' hrule'
    obtain rfl : grouping = grouping' := Option.some.inj (hrule.symm.trans hrule')
    exact ⟨gap, text, first, rest, rfl, hgap, h⟩
  arguments := by
    rintro rfl
    cases hrule

theorem isFlat_of_arguments {gap : List Char} {list : Value} (hgap : Spaces gap)
    (hlist : list.isArgument = true) (h : Spells names false (.arguments list) text) :
    IsFlat names .arguments (gap ++ text) where
  chain := fun _ hrule => nomatch hrule
  arguments := fun _ => ⟨gap, text, list, rfl, hgap, hlist, h⟩

theorem Derives.isFlat (h : Derives names rule text value) : IsFlat names rule text := by
  induction h with
  | literal hrule hliteral hx =>
    exact isFlat_of_chain hrule spaces_nil (.single (.literal hliteral hx))
  | binary hrule _ hgap hspelling _ hgap' _ ih ih' =>
    obtain ⟨lead, body, first, rest, rfl, hlead, hbody⟩ := ih.chain _ hrule
    obtain ⟨lead', body', first', rest', rfl, hlead', hbody'⟩ := ih'.chain _ hrule
    have hchain := hbody.append hgap hspelling (spaces_append.mpr ⟨hgap', hlead'⟩) hbody'
    simpa using isFlat_of_chain hrule hlead hchain
  | group hrule hbracket hgap _ hgap' ih =>
    obtain ⟨lead, body, first, rest, rfl, hlead, hbody⟩ := ih.chain _ hrule
    have hgroup := Spells.group hbracket (spaces_append.mpr ⟨hgap, hlead⟩) hbody hgap'
    simpa using isFlat_of_chain hrule spaces_nil (.single hgroup)
  | call hrule hname hbracket hgap hgap₁ hgap₂ _ hgap₃ hgap₄ ih =>
    obtain ⟨lead, body, list, rfl, hlead, _, hbody⟩ := ih.arguments rfl
    have hflat := isFlat_of_chain hrule hgap (.single (.call hname hbracket hgap₁
      (spaces_append.mpr ⟨hgap₂, hlead⟩) hbody hgap₃ hgap₄))
    simpa using hflat
  | callOfNone hrule hname hbracket hgap hgap₁ hgap₂ hgap₃ =>
    have hflat := isFlat_of_chain hrule hgap
      (.single (.call hname hbracket hgap₁ hgap₂ .noArguments spaces_nil hgap₃))
    simpa using hflat
  | lastArgument _ ih =>
    obtain ⟨lead, body, first, rest, rfl, hlead, hbody⟩ := ih.chain false rfl
    exact isFlat_of_arguments hlead rfl (.lastArgument hbody)
  | moreArguments _ hgap hgap' _ ih ih' =>
    obtain ⟨lead, body, first, rest, rfl, hlead, hbody⟩ := ih.chain false rfl
    obtain ⟨lead', body', list, rfl, hlead', hlist, hbody'⟩ := ih'.arguments rfl
    have hmore := Spells.moreArguments hbody hgap (spaces_append.mpr ⟨hgap', hlead'⟩) hlist hbody'
    simpa using isFlat_of_arguments hlead rfl hmore

-- The parser takes the text, and maybe some of the spaces behind it.
def TakesText (p : Parser) (view : View) (text after : List Char) (value : Value) : Prop :=
  ∃ gap after', after = gap ++ after' ∧ Spaces gap ∧ Takes p view (text.length + gap.length) value

-- What is known of the rules on all views below a size.
structure ReadsBelow (names : List String) (rules : RuleName → Parser) (size : Nat) : Prop where
  sound : ∀ rule ∈ ruleNames, ∀ view : View, view.size < size →
    Reads (rules rule) view (Derives names rule)
  chain : ∀ (view : View) (rule : RuleName) (grouping : Bool) (first : Value)
    (rest : List (Operator × Value)) (text after : List Char), view.size < size →
    grouping? rule = some grouping → Spells names grouping (.chain first rest) text →
    view.chars = text ++ after → Ends grouping after →
    TakesText (rules rule) view text after (assemble first rest)
  arguments : ∀ (view : View) (list : Value) (text after : List Char), view.size < size →
    list.isArgument = true → Spells names false (.arguments list) text →
    view.chars = text ++ after → Closes after → TakesText (rules .arguments) view text after list

theorem mem_ruleNames (hrule : grouping? rule = some grouping) : rule ∈ ruleNames := by
  rcases grouping?_argument_or_expression hrule with ⟨rfl, _⟩ | ⟨rfl, _⟩ <;> decide

-- An operator that joins nothing in a chain is not found in it: a derived text in front of it would
-- be another reading of the chain. Where an operator follows, only cuts inside the chain are looked
-- at.
theorem cutFails (hnames : WordNames names) (hbelow : ReadsBelow names rules view.size)
    (hrule : grouping? rule = some grouping) (h : Spells names grouping (.chain first rest) text)
    (hview : view.chars = text ++ after) (hfollows : Follows grouping after) {operator : Operator}
    (hother : ∀ entry ∈ rest, entry.1 ≠ operator) {cut : Nat} (hlast : cut < view.size)
    (hinside : ¬Joins after ∨ cut < text.length ∧ EndsSolid text) :
    CutFails (rules rule) ((operatorPattern operator).parser rules) view cut := by
  rcases operatorPattern_reads operator (view.drop cut) with
    hfails | ⟨count, value, _, htakes, _, spelling, _, _, _, _, hspelling, hstands, _⟩
  · exact .inl hfails
  refine .inr ⟨count, value, htakes, ?_⟩
  have hsmaller : (view.take cut).size < view.size := by
    rw [View.size_take]
    omega
  rcases complete_take_reads (Nat.le_of_lt hlast)
      (hbelow.sound rule (mem_ruleNames hrule) (view.take cut) hsmaller) with
    hfails | ⟨value', _, hderives⟩
  · exact hfails
  exfalso
  rw [View.chars_drop] at hstands
  obtain ⟨lead, body, first', rest', htake, hlead, hbody⟩ := hderives.isFlat.chain _ hrule
  have hcut : lead ++ (body ++ view.chars.drop cut) = text ++ after := by
    rw [← List.append_assoc, ← htake, List.take_append_drop, hview]
  have hsame : body ++ view.chars.drop cut = text ++ after :=
    spaces_cancel hlead spaces_nil (hbody.not_isSpace_head hnames (by simp) _)
      (h.not_isSpace_head hnames (by simp) _) hcut
  have hjoins : Joins (view.chars.drop cut) := ⟨spelling, mem_allSpellings hspelling, hstands⟩
  rcases hbody.readAlike hnames _ _ _ _ _ h (.inr hjoins) hfollows hsame with
    hskip | ⟨entry, hentry, spelling', hspelling', hstands', _⟩ | hgoes
  · rcases hinside with hnone | ⟨hlt, hsolid⟩
    · exact hnone ⟨spelling, mem_allSpellings hspelling, hskip ▸ hstands⟩
    · have hlonger := (hsolid.drop hlt).length_lt after
      have hle : (skipSpaces after).length ≤ after.length := List.length_dropWhile_le _ _
      rw [hview, List.drop_append_of_le_length (Nat.le_of_lt hlt)] at hskip
      rw [hskip] at hlonger
      omega
  · have hunique := hstands.unique hstands' (mem_allSpellings hspelling)
      (mem_allSpellings hspelling')
    exact hother entry hentry (operator_unique (hunique ▸ hspelling') hspelling)
  · rcases hinside with hnone | ⟨hlt, _⟩
    · exact hnone hgoes.joins
    · obtain ⟨_, _, _, _, _, hlonger⟩ := hgoes
      rw [hview, List.length_drop, List.length_append] at hlonger
      omega

theorem binary_fails (hnames : WordNames names) (hbelow : ReadsBelow names rules view.size)
    (hrule : grouping? rule = some grouping) (h : Spells names grouping (.chain first rest) text)
    (hview : view.chars = text ++ after) (hends : Ends grouping after) {operator : Operator}
    (hother : ∀ entry ∈ rest, entry.1 ≠ operator) :
    Fails ((binary rule operator).parser rules) view :=
  seq_fails_left (splitShortest_fails fun _ _ hlast =>
    cutFails hnames hbelow hrule h hview (.inl hends) hother hlast (.inl hends.not_joins))

theorem EndsSolid.length_pos (h : EndsSolid text) : 1 ≤ text.length := by
  obtain ⟨front, c, rfl, _⟩ := h
  simp

-- What stands in front of a cut is read as a whole.
theorem complete_takes_front (hbelow : ReadsBelow names rules view.size)
    (hrule : grouping? rule = some grouping) (h : Spells names grouping (.chain first rest) text)
    (hview : view.chars = text ++ after) (hlast : text.length < view.size) :
    Takes (complete (rules rule)) (view.take text.length) text.length (assemble first rest) := by
  have hfront : (view.take text.length).chars = text ++ [] := by
    rw [View.chars_take, hview, List.take_left, List.append_nil]
  have hsize : (view.take text.length).size = text.length := by
    rw [View.size_take]
    omega
  obtain ⟨gap, after', hafter, _, htakes⟩ := hbelow.chain _ rule grouping first rest text []
    (by omega) hrule h hfront (ends_nil spaces_nil grouping)
  obtain ⟨rfl, rfl⟩ := List.append_eq_nil_iff.mp hafter.symm
  have hall : Takes (rules rule) (view.take text.length) (view.take text.length).size
      (assemble first rest) := by
    rwa [hsize]
  have hcomplete := complete_takes hall
  rwa [hsize] at hcomplete

-- The left side ends with its last operand: the spaces behind it belong to the operator.
theorem leftSide_takes (hnames : WordNames names) (hbelow : ReadsBelow names rules view.size)
    (hrule : grouping? rule = some grouping) {operator : Operator} {spelling : String}
    {gap gap' back : List Char} (h : Spells names grouping (.chain first rest) text)
    (hsolid : EndsSolid text) (hgap : Spaces gap) (hspelling : spelling ∈ operator.spellings)
    (hgap' : Spaces gap') (hback : ∀ c ∈ back.head?, isSpace c = false)
    (hstands : StandsAt spelling (spelling.toList ++ (gap' ++ back)))
    (hview : view.chars = text ++ (gap ++ (spelling.toList ++ (gap' ++ back))))
    (hother : ∀ entry ∈ rest, entry.1 ≠ operator) :
    Takes ((splitShortest (call rule) (operatorPattern operator) .first).parser rules) view
      (text.length + (gap.length + (spelling.toList.length + gap'.length)))
      (assemble first rest) := by
  have hlast : text.length < view.size := by
    have hpositive := length_spelling_pos hspelling
    have hsize := congrArg List.length hview
    simp only [View.length_chars, List.length_append] at hsize
    omega
  have hskip : skipSpaces (gap ++ (spelling.toList ++ (gap' ++ back))) =
      spelling.toList ++ (gap' ++ back) := by
    rw [skipSpaces_append hgap, skipSpaces_spelling hspelling]
  have hjoins : Joins (gap ++ (spelling.toList ++ (gap' ++ back))) :=
    ⟨spelling, mem_allSpellings hspelling, hskip.symm ▸ hstands⟩
  have hoperator : Takes ((operatorPattern operator).parser rules) (view.drop text.length)
      (gap.length + (spelling.toList.length + gap'.length)) (.str spelling) :=
    operatorPattern_takes hspelling hgap hgap' hback (View.chars_drop_length hview) hstands
  have hcuts : ∀ cut, 1 ≤ cut → cut < text.length →
      CutFails (rules rule) ((operatorPattern operator).parser rules) view cut := by
    intro cut _ hcut
    exact cutFails hnames hbelow hrule h hview (.inr hjoins) hother (by omega) (.inr ⟨hcut, hsolid⟩)
  have hleft := complete_takes_front hbelow hrule h hview hlast
  exact splitShortest_takes hsolid.length_pos hlast hcuts hoperator hleft rfl hleft.1

theorem binary_takes (hnames : WordNames names) (hbelow : ReadsBelow names rules view.size)
    (hrule : grouping? rule = some grouping) {operator : Operator} {spelling : String}
    {gap gap' back : List Char} {next : Value} {others : List (Operator × Value)}
    (h : Spells names grouping (.chain first rest) text) (hsolid : EndsSolid text)
    (hgap : Spaces gap) (hspelling : spelling ∈ operator.spellings) (hgap' : Spaces gap')
    (hback : Spells names grouping (.chain next others) back)
    (hview : view.chars = text ++ (gap ++ (spelling.toList ++ (gap' ++ (back ++ after)))))
    (hends : Ends grouping after) (hother : ∀ entry ∈ rest, entry.1 ≠ operator) :
    TakesText ((binary rule operator).parser rules) view
      (text ++ (gap ++ (spelling.toList ++ (gap' ++ back)))) after
      (.binary operator (assemble first rest) (assemble next others)) := by
  have hstands := hback.stands_behind hnames hgap hspelling hgap' after
  rw [skipSpaces_append hgap, skipSpaces_spelling hspelling] at hstands
  have hleft := leftSide_takes hnames hbelow hrule h hsolid hgap hspelling hgap'
    (hback.not_isSpace_head hnames (by simp) after) hstands hview hother
  -- What is left begins with the right side.
  have hbehind : (view.drop (text.length + (gap.length + (spelling.toList.length +
      gap'.length)))).chars = back ++ after := by
    simp only [← View.drop_drop]
    exact View.chars_drop_length (View.chars_drop_length (View.chars_drop_length
      (View.chars_drop_length hview)))
  have hsmaller : (view.drop (text.length + (gap.length + (spelling.toList.length +
      gap'.length)))).size < view.size := by
    have hpositive := hsolid.length_pos
    have hle := length_le_size hview
    rw [View.size_drop]
    omega
  obtain ⟨gap₀, after₀, hafter₀, hgap₀, hright⟩ :=
    hbelow.chain _ rule grouping next others back after hsmaller hrule hback hbehind hends
  refine ⟨gap₀, after₀, hafter₀, hgap₀, ?_⟩
  have htakes : Takes ((binary rule operator).parser rules) view _ _ :=
    seq_takes hleft hright rfl rfl
  convert htakes using 1
  simp only [List.length_append]
  omega

end Abacus.Grammar
