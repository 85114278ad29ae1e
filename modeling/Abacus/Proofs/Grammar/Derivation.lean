import Abacus.Function.Registry
import Abacus.Proofs.Grammar.Literals

namespace Abacus.Grammar

-- The rules that derive one tree, by whether a comma may group the digits of a number.
def grouping? : RuleName → Option Bool
  | .expression => some true
  | .argument => some false
  | _ => none

inductive Derives (names : List String) : RuleName → List Char → Value → Prop
  | literal {rule : RuleName} {grouping : Bool} {text : List Char} {x : Float} :
      grouping? rule = some grouping → Literal grouping text → literalValue? text = some x →
      Derives names rule text (.number x)
  -- The one-character spelling `*` is not the beginning of `**`.
  | binary {rule : RuleName} {grouping : Bool} {operator : Operator} {spelling : String}
      {front gap gap' back : List Char} {left right : Value} :
      grouping? rule = some grouping → Derives names rule front left → Spaces gap →
      spelling ∈ operator.spellings → (spelling = "*" → (gap' ++ back).head? ≠ some '*') →
      Spaces gap' → Derives names rule back right →
      Derives names rule (front ++ (gap ++ (spelling.toList ++ (gap' ++ back))))
        (.binary operator left right)
  | group {rule : RuleName} {grouping : Bool} {bracket : Char × Char} {gap inner gap' : List Char}
      {tree : Value} :
      grouping? rule = some grouping → bracket ∈ brackets → Spaces gap →
      Derives names rule inner tree → Spaces gap' →
      Derives names rule (bracket.1 :: (gap ++ (inner ++ (gap' ++ [bracket.2])))) tree
  | call {rule : RuleName} {grouping : Bool} {name : String} {bracket : Char × Char}
      {gap gap₁ gap₂ text gap₃ gap₄ : List Char} {arguments : Value} :
      grouping? rule = some grouping → name ∈ names → bracket ∈ brackets → Spaces gap →
      Spaces gap₁ → Spaces gap₂ → Derives names .arguments text arguments → Spaces gap₃ →
      Spaces gap₄ →
      Derives names rule (gap ++ (name.toList ++ (gap₁ ++
        (bracket.1 :: (gap₂ ++ (text ++ (gap₃ ++ bracket.2 :: gap₄)))))))
        (.call name arguments)
  | callOfNone {rule : RuleName} {grouping : Bool} {name : String} {bracket : Char × Char}
      {gap gap₁ gap₂ gap₃ : List Char} :
      grouping? rule = some grouping → name ∈ names → bracket ∈ brackets → Spaces gap →
      Spaces gap₁ → Spaces gap₂ → Spaces gap₃ →
      Derives names rule (gap ++ (name.toList ++ (gap₁ ++
        (bracket.1 :: (gap₂ ++ bracket.2 :: gap₃)))))
        (.call name .noArguments)
  | lastArgument {text : List Char} {first : Value} :
      Derives names .argument text first →
      Derives names .arguments text (.argument first .noArguments)
  | moreArguments {text gap gap' others : List Char} {first rest : Value} :
      Derives names .argument text first → Spaces gap → Spaces gap' →
      Derives names .arguments others rest →
      Derives names .arguments (text ++ (gap ++ (',' :: (gap' ++ others)))) (.argument first rest)

variable {names : List String} {rule : RuleName} {text : List Char} {value : Value}

theorem Derives.isAbsent (h : Derives names rule text value) : value.isAbsent = false := by
  induction h with
  | group _ _ _ _ _ ih => exact ih
  | _ => rfl

theorem Derives.isArgument (h : Derives names .arguments text value) : value.isArgument = true := by
  cases h with
  | lastArgument _ => rfl
  | moreArguments _ _ _ _ => rfl
  | literal hrule => cases hrule
  | binary hrule => cases hrule
  | group hrule => cases hrule
  | call hrule => cases hrule
  | callOfNone hrule => cases hrule

theorem Literal.ne_nil {grouping : Bool} (h : Literal grouping text) : text ≠ [] := by
  cases h with
  | whole hwhole => cases hwhole <;> simp
  | mixed _ _ => simp
  | fraction _ => simp

-- Whether every closing bracket is the partner of the bracket that was opened last, and no bracket
-- stays open. The closing brackets that are still due come innermost first.
def bracketsMatch : (due : List Char) → List Char → Bool
  | due, [] => due.isEmpty
  | due, c :: rest =>
      match brackets.find? (·.1 = c) with
      | some bracket => bracketsMatch (bracket.2 :: due) rest
      | none =>
          if brackets.any (·.2 = c) then due.head? = some c && bracketsMatch due.tail rest
          else bracketsMatch due rest

def isBracket (c : Char) : Bool := brackets.any fun bracket => bracket.1 = c || bracket.2 = c

-- A text leaves the brackets that are due as they are.
def KeepsDue (text : List Char) : Prop :=
  ∀ due rest, bracketsMatch due (text ++ rest) = bracketsMatch due rest

theorem keepsDue_append {front back : List Char} (hfront : KeepsDue front)
    (hback : KeepsDue back) : KeepsDue (front ++ back) := by
  intro due rest
  rw [List.append_assoc, hfront, hback]

theorem keepsDue_of_no_bracket (h : ∀ c ∈ text, isBracket c = false) : KeepsDue text := by
  intro due rest
  induction text with
  | nil => rfl
  | cons c text ih =>
    have hc := h c List.mem_cons_self
    simp only [isBracket, List.any_eq_false, Bool.or_eq_true, decide_eq_true_eq, not_or] at hc
    have hfind : brackets.find? (·.1 = c) = none :=
      List.find?_eq_none.mpr fun bracket hb => by simpa using (hc bracket hb).1
    have hany : brackets.any (·.2 = c) = false :=
      List.any_eq_false.mpr fun bracket hb => by simpa using (hc bracket hb).2
    rw [List.cons_append, bracketsMatch, hfind, hany]
    exact ih fun d hd => h d (List.mem_cons_of_mem _ hd)

-- A pair of partners around a text that leaves the due brackets as they are.
theorem keepsDue_bracketed {bracket : Char × Char} (hbracket : bracket ∈ brackets)
    (h : KeepsDue text) : KeepsDue (bracket.1 :: (text ++ [bracket.2])) := by
  intro due rest
  have hopen : ∀ b ∈ brackets, brackets.find? (·.1 = b.1) = some b := by decide
  have hclose : ∀ b ∈ brackets, brackets.find? (·.1 = b.2) = none ∧
      brackets.any (·.2 = b.2) = true := by decide
  obtain ⟨hfind, hany⟩ := hclose bracket hbracket
  rw [List.cons_append, bracketsMatch, hopen bracket hbracket, List.append_assoc]
  change bracketsMatch (bracket.2 :: due) (text ++ ([bracket.2] ++ rest)) = bracketsMatch due rest
  rw [h, List.singleton_append, bracketsMatch, hfind, hany]
  simp

theorem Spaces.keepsDue {gap : List Char} (h : Spaces gap) : KeepsDue gap := by
  apply keepsDue_of_no_bracket
  intro c hc
  rcases isSpace_iff.mp (h c hc) with rfl | rfl | rfl | rfl <;> decide

theorem keepsDue_spelling {operator : Operator} {spelling : String}
    (h : spelling ∈ operator.spellings) : KeepsDue spelling.toList := by
  have hall : (allSpellings.all fun s => s.toList.all fun c => !isBracket c) = true := by decide
  apply keepsDue_of_no_bracket
  intro c hc
  have hbracket := List.all_eq_true.mp (List.all_eq_true.mp hall _ (mem_allSpellings h)) c hc
  simpa using hbracket

theorem isNameChar_of_mem {name : String} (h : Registry.isValidName name = true) {c : Char}
    (hc : c ∈ name.toList) : Registry.isNameChar c = true := by
  simp only [Registry.isValidName, Bool.and_eq_true, List.all_eq_true] at h
  exact h.2 c hc

theorem not_isNameChar_of_isBracket {c : Char} (h : isBracket c = true) :
    Registry.isNameChar c = false := by
  have hall : ∀ b ∈ brackets, Registry.isNameChar b.1 = false ∧ Registry.isNameChar b.2 = false := by
    decide
  obtain ⟨bracket, hb, hc⟩ := List.any_eq_true.mp h
  obtain ⟨hopen, hclose⟩ := hall bracket hb
  rcases (by simpa using hc : bracket.1 = c ∨ bracket.2 = c) with rfl | rfl
  · exact hopen
  · exact hclose

theorem keepsDue_name {name : String} (h : Registry.isValidName name = true) :
    KeepsDue name.toList := by
  refine keepsDue_of_no_bracket fun c hc => Bool.eq_false_iff.mpr fun hbracket => ?_
  have hname := isNameChar_of_mem h hc
  rw [not_isNameChar_of_isBracket hbracket] at hname
  cases hname

-- The characters that a literal is made of.
def isLiteralChar (c : Char) : Bool := c.isDigit || c = ',' || c = '.'

theorem not_isLiteralChar_of_isSpace {c : Char} (h : isSpace c = true) :
    isLiteralChar c = false := by
  rcases isSpace_iff.mp h with rfl | rfl | rfl | rfl <;> decide

theorem not_isLiteralChar_bracket {bracket : Char × Char} (h : bracket ∈ brackets) :
    isLiteralChar bracket.1 = false ∧ isLiteralChar bracket.2 = false := by
  have hall : ∀ b ∈ brackets, isLiteralChar b.1 = false ∧ isLiteralChar b.2 = false := by decide
  exact hall bracket h

theorem Literal.isLiteralChar_of_mem {grouping : Bool} (h : Literal grouping text) {c : Char}
    (hc : c ∈ text) : isLiteralChar c = true := by
  rcases h.char_of_mem c hc with hdigit | rfl | ⟨-, rfl⟩
  · simp [isLiteralChar, hdigit]
  · decide
  · decide

theorem Literal.keepsDue {grouping : Bool} (h : Literal grouping text) : KeepsDue text := by
  apply keepsDue_of_no_bracket
  intro c hc
  have hliteral := h.isLiteralChar_of_mem hc
  apply List.any_eq_false.mpr
  intro bracket hb
  obtain ⟨hopen, hclose⟩ := not_isLiteralChar_bracket hb
  have hne : bracket.1 ≠ c ∧ bracket.2 ≠ c := by
    constructor
    · rintro rfl
      rw [hopen] at hliteral
      cases hliteral
    · rintro rfl
      rw [hclose] at hliteral
      cases hliteral
  simpa using hne

-- Whatever a rule derives, each bracket in it is closed in it.
theorem Derives.keepsDue (hnames : ∀ name ∈ names, Registry.isValidName name = true)
    (h : Derives names rule text value) : KeepsDue text := by
  induction h with
  | literal _ hliteral _ => exact hliteral.keepsDue
  | binary _ _ hgap hspelling _ hgap' _ ihfront ihback =>
    exact keepsDue_append ihfront (keepsDue_append hgap.keepsDue
      (keepsDue_append (keepsDue_spelling hspelling) (keepsDue_append hgap'.keepsDue ihback)))
  | @group _ _ bracket gap inner gap' _ _ hbracket hgap _ hgap' ih =>
    have hinner := keepsDue_append hgap.keepsDue (keepsDue_append ih hgap'.keepsDue)
    have hgroup := keepsDue_bracketed hbracket hinner
    rwa [List.append_assoc, List.append_assoc] at hgroup
  | @call _ _ name bracket gap gap₁ gap₂ text gap₃ gap₄ _ _ hname hbracket hgap hgap₁ hgap₂ _ hgap₃
      hgap₄ ih =>
    have hinner := keepsDue_append hgap₂.keepsDue (keepsDue_append ih hgap₃.keepsDue)
    have hgroup := keepsDue_append (keepsDue_bracketed hbracket hinner) hgap₄.keepsDue
    have hall := keepsDue_append hgap.keepsDue (keepsDue_append (keepsDue_name (hnames name hname))
      (keepsDue_append hgap₁.keepsDue hgroup))
    simpa using hall
  | @callOfNone _ _ name bracket gap gap₁ gap₂ gap₃ _ hname hbracket hgap hgap₁ hgap₂ hgap₃ =>
    have hgroup := keepsDue_append (keepsDue_bracketed hbracket hgap₂.keepsDue) hgap₃.keepsDue
    have hall := keepsDue_append hgap.keepsDue (keepsDue_append (keepsDue_name (hnames name hname))
      (keepsDue_append hgap₁.keepsDue hgroup))
    simpa using hall
  | lastArgument _ ih => exact ih
  | moreArguments _ hgap hgap' _ ih ih' =>
    have hcomma : KeepsDue [','] :=
      keepsDue_of_no_bracket (List.forall_mem_singleton.mpr (by decide))
    have hrest := keepsDue_append hcomma (keepsDue_append hgap'.keepsDue ih')
    exact keepsDue_append ih (keepsDue_append hgap.keepsDue hrest)

end Abacus.Grammar
