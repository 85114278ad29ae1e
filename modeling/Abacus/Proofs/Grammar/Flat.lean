import Abacus.Proofs.Grammar.Derivation

namespace Abacus.Grammar

-- What is written: an operand, operands joined by operators, or the arguments of a call.
inductive Phrase
  | operand (tree : Value)
  | chain (first : Value) (rest : List (Operator × Value))
  | arguments (list : Value)

-- Whether an operand is joined by another operator.
def isJoinedOtherwise (operator : Operator) (entry : Operator × Value) : Bool :=
  entry.1 ≠ operator

theorem length_around {operator : Operator} {rest others : List (Operator × Value)}
    {entry : Operator × Value}
    (h : rest.dropWhile (isJoinedOtherwise operator) = entry :: others) :
    (rest.takeWhile (isJoinedOtherwise operator)).length + others.length < rest.length := by
  have hlength := congrArg List.length
    (@List.takeWhile_append_dropWhile _ (isJoinedOtherwise operator) rest)
  rw [h, List.length_append, List.length_cons] at hlength
  omega

-- The tree of operands that are joined by operators.
def assemble (first : Value) (rest : List (Operator × Value)) : Value :=
  match Operator.all.find? fun operator => rest.any (·.1 = operator) with
  | none => first
  | some operator =>
      match h : rest.dropWhile (isJoinedOtherwise operator) with
      | [] => first
      | (_, next) :: others =>
          have := length_around h
          .binary operator (assemble first (rest.takeWhile (isJoinedOtherwise operator)))
            (assemble next others)
termination_by rest.length

-- How a phrase is written. With grouping, a comma may stand between two digits of a number; never
-- in the arguments of a call, where commas separate.
inductive Spells (names : List String) : Bool → Phrase → List Char → Prop
  | literal {grouping : Bool} {text : List Char} {x : Float} :
      Literal grouping text → literalValue? text = some x →
      Spells names grouping (.operand (.number x)) text
  | group {grouping : Bool} {bracket : Char × Char} {gap inner gap' : List Char} {first : Value}
      {rest : List (Operator × Value)} :
      bracket ∈ brackets → Spaces gap → Spells names grouping (.chain first rest) inner →
      Spaces gap' →
      Spells names grouping (.operand (assemble first rest))
        (bracket.1 :: (gap ++ (inner ++ (gap' ++ [bracket.2]))))
  | call {grouping : Bool} {name : String} {bracket : Char × Char}
      {gap gap₁ text gap₂ gap₃ : List Char} {list : Value} :
      name ∈ names → bracket ∈ brackets → Spaces gap → Spaces gap₁ →
      Spells names false (.arguments list) text → Spaces gap₂ → Spaces gap₃ →
      Spells names grouping (.operand (.call name list))
        (name.toList ++ (gap ++ (bracket.1 :: (gap₁ ++ (text ++ (gap₂ ++ bracket.2 :: gap₃))))))
  | single {grouping : Bool} {text : List Char} {tree : Value} :
      Spells names grouping (.operand tree) text → Spells names grouping (.chain tree []) text
  | joined {grouping : Bool} {operator : Operator} {spelling : String}
      {text gap gap' others : List Char} {tree next : Value} {rest : List (Operator × Value)} :
      Spells names grouping (.operand tree) text → Spaces gap → spelling ∈ operator.spellings →
      Spaces gap' → Spells names grouping (.chain next rest) others →
      Spells names grouping (.chain tree ((operator, next) :: rest))
        (text ++ (gap ++ (spelling.toList ++ (gap' ++ others))))
  | noArguments : Spells names false (.arguments .noArguments) []
  | lastArgument {text : List Char} {first : Value} {rest : List (Operator × Value)} :
      Spells names false (.chain first rest) text →
      Spells names false (.arguments (.argument (assemble first rest) .noArguments)) text
  | moreArguments {text gap gap' others : List Char} {first list : Value}
      {rest : List (Operator × Value)} :
      Spells names false (.chain first rest) text → Spaces gap → Spaces gap' →
      list.isArgument = true → Spells names false (.arguments list) others →
      Spells names false (.arguments (.argument (assemble first rest) list))
        (text ++ (gap ++ (',' :: (gap' ++ others))))

-- The names of a registry, none of which begins like a number.
structure WordNames (names : List String) : Prop where
  valid : ∀ name ∈ names, Registry.isValidName name = true
  apart : ∀ name ∈ names, ∀ c ∈ name.toList.head?, c.isDigit = false

variable {names : List String} {grouping : Bool} {phrase : Phrase} {text : List Char}
  {first tree : Value} {rest : List (Operator × Value)}

@[simp]
theorem assemble_nil (first : Value) : assemble first [] = first := by
  unfold assemble
  rfl

-- The operator that splits a flat expression is the first in the order of the operators that occurs,
-- and it splits it where it occurs first.
theorem assemble_splits (first : Value) (hne : rest ≠ []) :
    ∃ earlier operator later before next others, Operator.all = earlier ++ operator :: later ∧
      (∀ other ∈ earlier, ∀ entry ∈ rest, entry.1 ≠ other) ∧
      rest = before ++ (operator, next) :: others ∧ (∀ entry ∈ before, entry.1 ≠ operator) ∧
      assemble first rest = .binary operator (assemble first before) (assemble next others) := by
  obtain ⟨operator, hfind⟩ : ∃ operator,
      Operator.all.find? (fun operator => rest.any (·.1 = operator)) = some operator := by
    rw [← Option.isSome_iff_exists, List.find?_isSome]
    obtain ⟨entry, rest', rfl⟩ := List.exists_cons_of_ne_nil hne
    exact ⟨entry.1, entry.1.mem_all, by simp⟩
  obtain ⟨hoccurs, earlier, later, hall, hearlier⟩ := List.find?_eq_some_iff_append.mp hfind
  obtain ⟨entry, hentry, hoperator⟩ := List.any_eq_true.mp hoccurs
  obtain ⟨⟨operator', next⟩, others, hdrop⟩ :
      ∃ last others, rest.dropWhile (isJoinedOtherwise operator) = last :: others := by
    apply List.exists_cons_of_ne_nil
    intro hnil
    have hother := List.dropWhile_eq_nil_iff.mp hnil entry hentry
    simp_all [isJoinedOtherwise]
  obtain rfl : operator' = operator := by
    have hhead := List.head?_dropWhile_not (isJoinedOtherwise operator) rest
    rw [hdrop] at hhead
    simpa [isJoinedOtherwise] using hhead
  refine ⟨earlier, operator', later, rest.takeWhile (isJoinedOtherwise operator'), next, others,
    hall, ?_, ?_, ?_, ?_⟩
  · intro other hother entry hentry heq
    have hnone := hearlier other hother
    simp only [Bool.not_eq_true', List.any_eq_false] at hnone
    exact hnone entry hentry (by simpa using heq)
  · rw [← hdrop, List.takeWhile_append_dropWhile]
  · intro entry hentry
    simpa [isJoinedOtherwise] using List.mem_takeWhile_imp hentry
  · conv_lhs => unfold assemble
    rw [hfind]
    dsimp only
    split
    · next h => simp [hdrop] at h
    · next h =>
      rw [hdrop] at h
      cases h
      rfl

-- What an operand may begin with.
def isOperandStart (c : Char) : Bool :=
  Registry.isNameChar c || c = '.' || brackets.any (·.1 = c)

theorem isNameChar_of_isDigit {c : Char} (h : c.isDigit = true) : Registry.isNameChar c = true := by
  have halphanum : c.isAlphanum = true := by simp [Char.isAlphanum, h]
  simp [Registry.isNameChar, Text.isAlphanumeric_of_isAlphanum halphanum]

theorem Literal.exists_head (h : Literal grouping text) :
    ∃ c rest, text = c :: rest ∧ (c.isDigit = true ∨ c = '.') := by
  rcases h.begins (List.prefix_refl text) with ⟨c, back, rfl, hc⟩ | ⟨c, back, rfl, -⟩
  · exact ⟨c, back, rfl, .inl hc⟩
  · exact ⟨'.', _, rfl, .inr rfl⟩

theorem exists_head_of_isValidName {name : String} (h : Registry.isValidName name = true) :
    ∃ c rest, name.toList = c :: rest ∧ Registry.isNameChar c = true := by
  have hne : name.toList ≠ [] := by
    simp only [Registry.isValidName, Bool.and_eq_true, decide_eq_true_eq] at h
    simpa using h.1
  obtain ⟨c, rest, heq⟩ := List.exists_cons_of_ne_nil hne
  exact ⟨c, rest, heq, isNameChar_of_mem h (heq ▸ List.mem_cons_self)⟩

-- Only the empty list of arguments is written as nothing.
theorem Spells.exists_head (hnames : WordNames names) (h : Spells names grouping phrase text)
    (hphrase : phrase ≠ .arguments .noArguments) :
    ∃ c rest, text = c :: rest ∧ isOperandStart c = true := by
  induction h with
  | literal hliteral _ =>
    obtain ⟨c, rest, rfl, hc⟩ := hliteral.exists_head
    refine ⟨c, rest, rfl, ?_⟩
    rcases hc with hc | rfl
    · simp [isOperandStart, isNameChar_of_isDigit hc]
    · decide
  | @group _ bracket _ _ _ _ _ hbracket _ _ _ _ =>
    refine ⟨bracket.1, _, rfl, ?_⟩
    have hopen : brackets.any (·.1 = bracket.1) = true :=
      List.any_eq_true.mpr ⟨bracket, hbracket, by simp⟩
    simp [isOperandStart, hopen]
  | call hname _ _ _ _ _ _ _ =>
    obtain ⟨c, rest, heq, hc⟩ := exists_head_of_isValidName (hnames.valid _ hname)
    exact ⟨c, _, by rw [heq]; rfl, by simp [isOperandStart, hc]⟩
  | single _ ih => exact ih (by simp)
  | joined _ _ _ _ _ ih _ =>
    obtain ⟨c, rest, rfl, hc⟩ := ih (by simp)
    exact ⟨c, _, rfl, hc⟩
  | noArguments => exact absurd rfl hphrase
  | lastArgument _ ih => exact ih (by simp)
  | moreArguments _ _ _ _ _ ih _ =>
    obtain ⟨c, rest, rfl, hc⟩ := ih (by simp)
    exact ⟨c, _, rfl, hc⟩

-- A text that does not end in a space.
def EndsSolid (text : List Char) : Prop := ∃ front c, text = front ++ [c] ∧ isSpace c = false

theorem EndsSolid.append_left (front : List Char) (h : EndsSolid text) :
    EndsSolid (front ++ text) := by
  obtain ⟨front', c, rfl, hc⟩ := h
  exact ⟨front ++ front', c, by rw [List.append_assoc], hc⟩

theorem EndsSolid.drop (h : EndsSolid text) {count : Nat} (hcount : count < text.length) :
    EndsSolid (text.drop count) := by
  obtain ⟨front, c, rfl, hc⟩ := h
  rw [List.length_append, List.length_singleton] at hcount
  exact ⟨front.drop count, c, List.drop_append_of_le_length (by omega), hc⟩

-- Spaces are skipped only up to the end of such a text.
theorem EndsSolid.length_lt (h : EndsSolid text) (after : List Char) :
    after.length < (skipSpaces (text ++ after)).length := by
  obtain ⟨front, c, rfl, hc⟩ := h
  induction front with
  | nil => simp [skipSpaces, hc]
  | cons d front ih =>
    by_cases hd : isSpace d = true
    · simpa [skipSpaces, hd] using ih
    · simp [skipSpaces, hd]
      omega

theorem endsSolid_close {bracket : Char × Char} (h : bracket ∈ brackets) (front : List Char) :
    EndsSolid (front ++ [bracket.2]) := by
  exact ⟨front, bracket.2, rfl, (not_isSpace_bracket h).2⟩

theorem Literal.endsSolid (h : Literal grouping text) : EndsSolid text := by
  refine ⟨text.dropLast, text.getLast h.ne_nil, (List.dropLast_concat_getLast _).symm, ?_⟩
  apply Bool.eq_false_iff.mpr
  intro hspace
  have hchar := h.isLiteralChar_of_mem (List.getLast_mem h.ne_nil)
  rw [not_isLiteralChar_of_isSpace hspace] at hchar
  cases hchar

-- The spaces behind a phrase may be left out.
theorem Spells.exists_core (h : Spells names grouping phrase text)
    (hphrase : phrase ≠ .arguments .noArguments) :
    ∃ core gap, text = core ++ gap ∧ Spaces gap ∧ Spells names grouping phrase core ∧
      EndsSolid core := by
  induction h with
  | literal hliteral hx =>
    exact ⟨_, [], by simp, spaces_nil, .literal hliteral hx, hliteral.endsSolid⟩
  | @group _ bracket gap inner gap' _ _ hbracket hgap hinner hgap' _ =>
    have hsolid := endsSolid_close hbracket (bracket.1 :: (gap ++ (inner ++ gap')))
    exact ⟨_, [], by simp, spaces_nil, .group hbracket hgap hinner hgap', by simpa using hsolid⟩
  | @call _ name bracket gap gap₁ text gap₂ gap₃ _ hname hbracket hgap hgap₁ hlist hgap₂ hgap₃ _ =>
    have hsolid := endsSolid_close hbracket
      (name.toList ++ (gap ++ (bracket.1 :: (gap₁ ++ (text ++ gap₂)))))
    exact ⟨_, gap₃, by simp, hgap₃, .call hname hbracket hgap hgap₁ hlist hgap₂ spaces_nil,
      by simpa using hsolid⟩
  | single _ ih =>
    obtain ⟨core, gap, rfl, hgap, hcore, hsolid⟩ := ih (by simp)
    exact ⟨core, gap, rfl, hgap, .single hcore, hsolid⟩
  | @joined _ _ spelling text gap gap' _ _ _ _ htext hgap hspelling hgap' _ _ ih =>
    obtain ⟨core, trail, rfl, htrail, hcore, hsolid⟩ := ih (by simp)
    have hsolid' := hsolid.append_left (text ++ (gap ++ (spelling.toList ++ gap')))
    exact ⟨_, trail, by simp, htrail, .joined htext hgap hspelling hgap' hcore,
      by simpa using hsolid'⟩
  | noArguments => exact absurd rfl hphrase
  | lastArgument _ ih =>
    obtain ⟨core, gap, rfl, hgap, hcore, hsolid⟩ := ih (by simp)
    exact ⟨core, gap, rfl, hgap, .lastArgument hcore, hsolid⟩
  | @moreArguments text gap gap' _ _ _ _ htext hgap hgap' hlist _ _ ih =>
    obtain ⟨core, trail, rfl, htrail, hcore, hsolid⟩ := ih (by rintro ⟨⟩; cases hlist)
    have hsolid' := hsolid.append_left (text ++ (gap ++ (',' :: gap')))
    exact ⟨_, trail, by simp, htrail, .moreArguments htext hgap hgap' hlist hcore,
      by simpa using hsolid'⟩

-- A chain may be taken apart in front of any of its operators, and put together again.
theorem Spells.split {before others : List (Operator × Value)} {operator : Operator} {next : Value}
    (h : Spells names grouping (.chain first (before ++ (operator, next) :: others)) text) :
    ∃ front gap spelling gap' back, text = front ++ (gap ++ (spelling.toList ++ (gap' ++ back))) ∧
      Spells names grouping (.chain first before) front ∧ Spaces gap ∧
      spelling ∈ operator.spellings ∧ Spaces gap' ∧
      Spells names grouping (.chain next others) back := by
  induction before generalizing first text with
  | nil =>
    cases h with
    | joined htext hgap hspelling hgap' hothers =>
      exact ⟨_, _, _, _, _, rfl, .single htext, hgap, hspelling, hgap', hothers⟩
  | cons entry before ih =>
    cases h with
    | @joined _ _ spelling' text gap' gap'' _ _ _ _ htext hgap' hspelling' hgap'' hothers =>
      obtain ⟨front, gap, spelling, gap₁, back, rfl, hfront, hgap, hspelling, hgap₁, hback⟩ :=
        ih hothers
      exact ⟨_, gap, spelling, gap₁, back, by simp,
        .joined htext hgap' hspelling' hgap'' hfront, hgap, hspelling, hgap₁, hback⟩

theorem Spells.append {rest others : List (Operator × Value)} {operator : Operator} {next : Value}
    {spelling : String} {gap gap' back : List Char}
    (h : Spells names grouping (.chain first rest) text) (hgap : Spaces gap)
    (hspelling : spelling ∈ operator.spellings) (hgap' : Spaces gap')
    (hback : Spells names grouping (.chain next others) back) :
    Spells names grouping (.chain first (rest ++ (operator, next) :: others))
      (text ++ (gap ++ (spelling.toList ++ (gap' ++ back)))) := by
  induction rest generalizing first text with
  | nil =>
    cases h with
    | single htext => exact .joined htext hgap hspelling hgap' hback
  | cons entry rest ih =>
    cases h with
    | joined htext hgap₁ hspelling₁ hgap₂ hothers =>
      have h := Spells.joined htext hgap₁ hspelling₁ hgap₂ (ih hothers)
      simpa using h

end Abacus.Grammar
