import Abacus.Proofs.Grammar.Tokens
import Mathlib.Algebra.Group.Nat.Even
import Mathlib.Data.List.DropRight

namespace Abacus.Pattern

open Abacus.Grammar Abacus.Parser Abacus.Text

variable {rules : RuleName → Parser} {view : View} {text encoded front rest : List Char}

-- The ways to write a text between double quotes: a backslash may stand before every character, and
-- has to stand before quotes and backslashes.
inductive Escapes : List Char → List Char → Prop
  | nil : Escapes [] []
  | plain {c : Char} {text encoded : List Char} : c ≠ doubleQuote → c ≠ backslash →
      Escapes text encoded → Escapes (c :: text) (c :: encoded)
  | escaped (c : Char) {text encoded : List Char} :
      Escapes text encoded → Escapes (c :: text) (backslash :: c :: encoded)

def backslashesAtEnd (text : List Char) : List Char := text.rtakeWhile (· = backslash)

-- A double quote that no backslash escapes.
def HasOpenQuote (chars : List Char) : Prop :=
  ∃ front back, chars = front ++ doubleQuote :: back ∧ Even (backslashesAtEnd front).length

theorem backslashesAtEnd_concat (text : List Char) (c : Char) :
    backslashesAtEnd (text ++ [c]) = if c = backslash then backslashesAtEnd text ++ [c] else [] := by
  simp [backslashesAtEnd, List.rtakeWhile_concat]

theorem backslashesAtEnd_cons {c : Char} (h : c ≠ backslash) (text : List Char) :
    backslashesAtEnd (c :: text) = backslashesAtEnd text := by
  induction text using List.reverseRecOn with
  | nil => simp [backslashesAtEnd, List.rtakeWhile, h]
  | append_singleton text last ih =>
    rw [← List.cons_append, backslashesAtEnd_concat, backslashesAtEnd_concat, ih]

-- An escaped character leaves the number even or odd.
theorem even_backslashesAtEnd_escaped (c : Char) (text : List Char) :
    Even (backslashesAtEnd (backslash :: c :: text)).length ↔
      Even (backslashesAtEnd text).length := by
  induction text using List.reverseRecOn with
  | nil =>
    have hconcat : [backslash, c] = ([] ++ [backslash]) ++ [c] := rfl
    rw [hconcat, backslashesAtEnd_concat, backslashesAtEnd_concat]
    by_cases h : c = backslash
    · rw [if_pos h, if_pos rfl]
      exact iff_of_true ⟨1, rfl⟩ Even.zero
    · rw [if_neg h]
      exact iff_of_true Even.zero Even.zero
  | append_singleton text last ih =>
    rw [← List.cons_append, ← List.cons_append, backslashesAtEnd_concat, backslashesAtEnd_concat]
    by_cases h : last = backslash
    · simp only [if_pos h, List.length_append, List.length_singleton, Nat.even_add_one, ih]
    · simp only [if_neg h]

theorem Escapes.even (h : Escapes text encoded) : Even (backslashesAtEnd encoded).length := by
  induction h with
  | nil => exact Even.zero
  | plain _ hbackslash _ ih => rwa [backslashesAtEnd_cons hbackslash]
  | escaped c _ ih => exact (even_backslashesAtEnd_escaped c _).mpr ih

-- Within an escaped text every quote is escaped.
theorem Escapes.not_even (h : Escapes text (front ++ doubleQuote :: rest)) :
    ¬Even (backslashesAtEnd front).length := by
  generalize hencoded : front ++ doubleQuote :: rest = encoded at h
  induction h generalizing front with
  | nil => exact absurd hencoded (by simp)
  | plain hquote hbackslash _ ih =>
    cases front with
    | nil => exact absurd (List.cons.inj hencoded).1.symm hquote
    | cons c front =>
      obtain ⟨rfl, hfront⟩ := List.cons.inj hencoded
      rw [backslashesAtEnd_cons hbackslash]
      exact ih hfront
  | escaped c _ ih =>
    cases front with
    | nil => exact absurd (List.cons.inj hencoded).1 (by decide)
    | cons first front =>
      obtain ⟨rfl, hnext⟩ := List.cons.inj hencoded
      cases front with
      | nil => decide
      | cons second front =>
        rw [even_backslashesAtEnd_escaped]
        exact ih (List.cons.inj hnext).2

-- A text goes on as an escaped text up to a quote, or to the end, where one backslash may be left.
def EndsOpen (rest : List Char) : Prop := rest = [] ∨ rest = [backslash]

theorem exists_escapes (chars : List Char) : ∃ text encoded rest, Escapes text encoded ∧
    chars = encoded ++ rest ∧ (EndsOpen rest ∨ ∃ back, rest = doubleQuote :: back) := by
  induction hlength : chars.length using Nat.strongRecOn generalizing chars with
  | _ length ih =>
    subst hlength
    cases chars with
    | nil => exact ⟨[], [], [], .nil, rfl, .inl (.inl rfl)⟩
    | cons c chars =>
      by_cases hquote : c = doubleQuote
      · exact ⟨[], [], c :: chars, .nil, rfl, .inr ⟨chars, by rw [hquote]⟩⟩
      by_cases hbackslash : c = backslash
      · cases chars with
        | nil => exact ⟨[], [], [c], .nil, rfl, .inl (.inr (by rw [hbackslash]))⟩
        | cons next chars =>
          have hshorter : chars.length < (c :: next :: chars).length := by
            simp only [List.length_cons]
            omega
          obtain ⟨text, encoded, rest, hescapes, rfl, hrest⟩ := ih _ hshorter chars rfl
          exact ⟨next :: text, c :: next :: encoded, rest, hbackslash ▸ .escaped next hescapes, rfl,
            hrest⟩
      · obtain ⟨text, encoded, rest, hescapes, rfl, hrest⟩ :=
          ih _ (Nat.lt_succ_self chars.length) chars rfl
        exact ⟨c :: text, c :: encoded, rest, .plain hquote hbackslash hescapes, rfl, hrest⟩

theorem Escapes.hasOpenQuote (h : Escapes text encoded) (back : List Char) :
    HasOpenQuote (encoded ++ doubleQuote :: back) := ⟨encoded, back, rfl, h.even⟩

theorem Escapes.not_hasOpenQuote (h : Escapes text encoded) (hrest : EndsOpen rest) :
    ¬HasOpenQuote (encoded ++ rest) := by
  rintro ⟨front, back, hchars, heven⟩
  have hnotRest : doubleQuote ∉ rest := by
    rcases hrest with rfl | rfl <;> decide
  rcases List.append_eq_append_iff.mp hchars with ⟨between, -, hbetween⟩ | ⟨between, rfl, hbetween⟩
  · exact hnotRest (by simp [hbetween])
  · cases between with
    | nil =>
      rw [List.nil_append] at hbetween
      exact hnotRest (hbetween ▸ List.mem_cons_self)
    | cons c between =>
      obtain ⟨rfl, -⟩ := List.cons.inj hbetween
      exact h.not_even heven

theorem exists_escapes_of_hasOpenQuote {chars : List Char} (h : HasOpenQuote chars) :
    ∃ text encoded back, Escapes text encoded ∧ chars = encoded ++ doubleQuote :: back := by
  obtain ⟨text, encoded, rest, hescapes, rfl, hrest | ⟨back, rfl⟩⟩ := exists_escapes chars
  · exact absurd h (hescapes.not_hasOpenQuote hrest)
  · exact ⟨text, encoded, back, hescapes, rfl⟩

theorem chars_drop_two {c d : Char} (hchars : view.chars = c :: d :: rest) :
    (view.drop 2).chars = rest := by
  rw [View.chars_drop, hchars]
  rfl

theorem head?_ne {c : Char} (hchars : view.chars = c :: rest) (h : c ≠ doubleQuote) :
    view.chars.head? ≠ some doubleQuote := by
  simp [hchars, h]

-- A character of the text, as it is written.
def quotedCharacter : Pattern := alt escape anyCharacter

theorem anyCharacter_takes {c : Char} (hchars : view.chars = c :: rest) :
    Takes (anyCharacter.parser rules) view 1 (.str (String.singleton c)) := satisfy_takes hchars rfl

theorem anyCharacter_fails (hchars : view.chars = []) : Fails (anyCharacter.parser rules) view :=
  satisfy_fails (by simp [hchars])

theorem escape_takes {c : Char} (hchars : view.chars = backslash :: c :: rest) :
    Takes (escape.parser rules) view 2 (.str (String.singleton c)) := by
  have hnext : (view.drop 1).chars = c :: rest := View.chars_drop_one hchars
  exact both_second_takes (character_takes hchars)
    (seq_second_takes (anyCharacter_takes hchars) (anyCharacter_takes hnext))

theorem quotedCharacter_takes_plain {c : Char} (hchars : view.chars = c :: rest)
    (h : c ≠ backslash) :
    Takes (quotedCharacter.parser rules) view 1 (.str (String.singleton c)) := by
  have hnoBackslash : Fails ((character backslash).parser rules) view :=
    character_fails (by simp [hchars, h])
  exact alt_takes_right (both_fails_left hnoBackslash) (anyCharacter_takes hchars)

-- The last backslash of a view escapes nothing.
theorem quotedCharacter_takes_backslash (hchars : view.chars = [backslash]) :
    Takes (quotedCharacter.parser rules) view 1 (.str (String.singleton backslash)) := by
  have hnext : (view.drop 1).chars = [] := View.chars_drop_one hchars
  have hescape : Fails (escape.parser rules) view := both_fails_right (character_takes hchars)
    (seq_fails_right (anyCharacter_takes hchars) (anyCharacter_fails hnext))
  exact alt_takes_right hescape (anyCharacter_takes hchars)

theorem quotedCharacter_fails (hchars : view.chars = []) :
    Fails (quotedCharacter.parser rules) view :=
  alt_fails (both_fails_left (character_fails (by simp [hchars]))) (anyCharacter_fails hchars)

-- The text behind the opening quote, with the closing one.
def closedText (rules : RuleName → Parser) (rounds : Nat) : Parser :=
  repeatUntilWithin (quotedCharacter.parser rules) ((character doubleQuote).parser rules) .joining
    rounds

-- One more character in front of a closed text.
theorem closedText_takes_more {c : Char} {rounds count count' : Nat} {text : List Char}
    (hstop : view.chars.head? ≠ some doubleQuote)
    (hcharacter : Takes (quotedCharacter.parser rules) view count (.str (String.singleton c)))
    (hrest : Takes (closedText rules rounds) (view.drop count) count' (.str (String.ofList text))) :
    Takes (closedText rules (rounds + 1)) view (count + count')
      (.str (String.ofList (c :: text))) := by
  rw [String.ofList_cons]
  exact alt_takes_right (character_fails hstop) (seq_takes hcharacter hrest rfl rfl)

theorem closedText_takes {rounds : Nat} (h : Escapes text encoded)
    (hchars : view.chars = encoded ++ doubleQuote :: rest) (hrounds : encoded.length < rounds) :
    Takes (closedText rules rounds) view (encoded.length + 1)
      (.str (String.ofList (text ++ [doubleQuote]))) := by
  induction h generalizing view rounds with
  | nil =>
    obtain ⟨rounds, rfl⟩ : ∃ n, rounds = n + 1 := ⟨rounds - 1, by omega⟩
    exact alt_takes_left (character_takes hchars)
  | @plain c text encoded hquote hbackslash _ ih =>
    rw [List.length_cons] at hrounds
    obtain ⟨rounds, rfl⟩ : ∃ n, rounds = n + 1 := ⟨rounds - 1, by omega⟩
    have hrest : Takes (closedText rules rounds) (view.drop 1) (encoded.length + 1)
        (.str (String.ofList (text ++ [doubleQuote]))) :=
      ih (View.chars_drop_one hchars) (by omega)
    have hcount : (c :: encoded).length + 1 = 1 + (encoded.length + 1) := by
      rw [List.length_cons]
      omega
    rw [hcount]
    exact closedText_takes_more (head?_ne hchars hquote)
      (quotedCharacter_takes_plain hchars hbackslash) hrest
  | @escaped c text encoded _ ih =>
    rw [List.length_cons, List.length_cons] at hrounds
    obtain ⟨rounds, rfl⟩ : ∃ n, rounds = n + 1 := ⟨rounds - 1, by omega⟩
    have hnext : (view.drop 2).chars = encoded ++ doubleQuote :: rest := chars_drop_two hchars
    have hrest : Takes (closedText rules rounds) (view.drop 2) (encoded.length + 1)
        (.str (String.ofList (text ++ [doubleQuote]))) := ih hnext (by omega)
    have hcount : (backslash :: c :: encoded).length + 1 = 2 + (encoded.length + 1) := by
      rw [List.length_cons, List.length_cons]
      omega
    rw [hcount]
    exact closedText_takes_more (head?_ne hchars (by decide))
      (alt_takes_left (escape_takes hchars)) hrest

-- Without a closing quote the text is read to its end and then given up.
theorem closedText_fails_more {count rounds : Nat} {value : Value}
    (hstop : view.chars.head? ≠ some doubleQuote)
    (hcharacter : Takes (quotedCharacter.parser rules) view count value)
    (hrest : Fails (closedText rules rounds) (view.drop count)) :
    Fails (closedText rules (rounds + 1)) view :=
  alt_fails (character_fails hstop) (seq_fails_right hcharacter hrest)

theorem closedText_fails_at_end {rounds : Nat} (hchars : EndsOpen view.chars)
    (hrounds : view.chars.length < rounds) : Fails (closedText rules rounds) view := by
  have hnil : ∀ {view : View} {rounds : Nat}, view.chars = [] →
      Fails (closedText rules (rounds + 1)) view := by
    intro view rounds hchars
    exact alt_fails (character_fails (by simp [hchars]))
      (seq_fails_left (quotedCharacter_fails hchars))
  rcases hchars with hchars | hchars
  · rw [hchars] at hrounds
    obtain ⟨rounds, rfl⟩ : ∃ n, rounds = n + 1 := ⟨rounds - 1, by simp at hrounds; omega⟩
    exact hnil hchars
  · rw [hchars] at hrounds
    obtain ⟨rounds, rfl⟩ : ∃ n, rounds = n + 2 := ⟨rounds - 2, by simp at hrounds; omega⟩
    exact closedText_fails_more (head?_ne hchars (by decide))
      (quotedCharacter_takes_backslash hchars) (hnil (View.chars_drop_one hchars))

theorem closedText_fails {rounds : Nat} (h : Escapes text encoded)
    (hchars : view.chars = encoded ++ rest) (hrest : EndsOpen rest)
    (hrounds : view.chars.length < rounds) : Fails (closedText rules rounds) view := by
  induction h generalizing view rounds with
  | nil => exact closedText_fails_at_end (hchars ▸ hrest) hrounds
  | @plain c text encoded hquote hbackslash _ ih =>
    have hnext : (view.drop 1).chars = encoded ++ rest := View.chars_drop_one hchars
    have hlength : view.chars.length = (view.drop 1).chars.length + 1 := by
      rw [hnext, hchars]
      rfl
    obtain ⟨rounds, rfl⟩ : ∃ n, rounds = n + 1 := ⟨rounds - 1, by omega⟩
    exact closedText_fails_more (head?_ne hchars hquote)
      (quotedCharacter_takes_plain hchars hbackslash) (ih hnext (by omega))
  | @escaped c text encoded _ ih =>
    have hnext : (view.drop 2).chars = encoded ++ rest := chars_drop_two hchars
    have hlength : view.chars.length = (view.drop 2).chars.length + 2 := by
      rw [hnext, hchars]
      rfl
    obtain ⟨rounds, rfl⟩ : ∃ n, rounds = n + 1 := ⟨rounds - 1, by omega⟩
    exact closedText_fails_more (head?_ne hchars (by decide)) (alt_takes_left (escape_takes hchars))
      (ih hnext (by omega))

theorem chars_drop_quoted (hchars : view.chars = doubleQuote :: encoded ++ doubleQuote :: rest) :
    (view.drop (encoded.length + 2)).chars = rest := by
  have hfront : view.chars = (doubleQuote :: encoded ++ [doubleQuote]) ++ rest := by
    rw [hchars, List.append_assoc, List.singleton_append]
  have hlength : (doubleQuote :: encoded ++ [doubleQuote]).length = encoded.length + 2 := by simp
  rw [← hlength]
  exact View.chars_drop_length hfront

theorem quotedText_takes (rules : RuleName → Parser) (h : Escapes text encoded)
    (hchars : view.chars = doubleQuote :: encoded ++ doubleQuote :: rest) :
    Takes (quotedText.parser rules) view (encoded.length + 2) (.str (String.ofList text)) := by
  have hnext : (view.drop 1).chars = encoded ++ doubleQuote :: rest := View.chars_drop_one hchars
  have hrounds : encoded.length < (view.drop 1).size + 1 := by
    have := length_le_size hnext
    omega
  have hclosed : Takes ((manyTill quotedCharacter (character doubleQuote) .joining).parser rules)
      (view.drop 1) (encoded.length + 1) (.str (String.ofList (text ++ [doubleQuote]))) :=
    closedText_takes h hnext hrounds
  have hopening : Takes ((character doubleQuote).parser rules) view 1
      (.str (String.singleton doubleQuote)) := character_takes hchars
  have hquoted := seq_second_takes hopening hclosed
  rw [show encoded.length + 2 = 1 + (encoded.length + 1) by omega]
  refine mapValue_takes hquoted ?_ rfl
  rw [Value.dropLast, String.toList_ofList, List.dropLast_concat]

theorem quotedText_fails (rules : RuleName → Parser)
    (h : view.chars.head? ≠ some doubleQuote ∨ ¬HasOpenQuote view.chars.tail) :
    Fails (quotedText.parser rules) view := by
  by_cases hopen : view.chars.head? = some doubleQuote
  · obtain ⟨chars, hchars⟩ := List.head?_eq_some_iff.mp hopen
    have hnoQuote : ¬HasOpenQuote chars := by
      rw [hchars] at h
      exact h.resolve_left (not_not_intro rfl)
    have hnext : (view.drop 1).chars = chars := View.chars_drop_one hchars
    obtain ⟨text, encoded, rest, hescapes, rfl, hrest | ⟨back, rfl⟩⟩ := exists_escapes chars
    · have hrounds : (view.drop 1).chars.length < (view.drop 1).size + 1 := by
        rw [View.length_chars]
        exact Nat.lt_succ_self _
      have hclosed : Fails ((manyTill quotedCharacter (character doubleQuote) .joining).parser
          rules) (view.drop 1) := closedText_fails hescapes hnext hrest hrounds
      exact mapValue_fails (seq_fails_right (character_takes hchars) hclosed)
    · exact absurd (hescapes.hasOpenQuote back) hnoQuote
  · exact mapValue_fails (seq_fails_left (character_fails hopen))

-- Text between quotes is read back from all ways of escaping it, and the reading ends right behind
-- the closing quote. Whatever is read is a text written in such a way, so there has to be an
-- opening quote, and behind it one that is not escaped.
theorem quoted_text_is_unescaped (rules : RuleName → Parser) (view : View) :
    (∀ text encoded rest, Escapes text encoded →
      view.chars = doubleQuote :: encoded ++ doubleQuote :: rest →
      quotedText.parser rules view =
          pure (.taken view (encoded.length + 2) (.str (String.ofList text))) ∧
        (view.drop (encoded.length + 2)).chars = rest) ∧
    ∃ result, quotedText.parser rules view = pure result ∧
      (result.failed = false → ∃ text encoded, Escapes text encoded ∧
        result.value = .str (String.ofList text) ∧
        view.chars = doubleQuote :: encoded ++ doubleQuote :: result.rest.chars) ∧
      (result.failed = true ↔
        view.chars.head? ≠ some doubleQuote ∨ ¬HasOpenQuote view.chars.tail) := by
  constructor
  · intro text encoded rest hescapes hchars
    exact ⟨(quotedText_takes rules hescapes hchars).2, chars_drop_quoted hchars⟩
  · by_cases hunread : view.chars.head? ≠ some doubleQuote ∨ ¬HasOpenQuote view.chars.tail
    · obtain ⟨result, hfailed, hresult⟩ := quotedText_fails rules hunread
      refine ⟨result, hresult, fun hok => ?_, iff_of_true hfailed hunread⟩
      rw [hfailed] at hok
      cases hok
    · obtain ⟨hopen, hquote⟩ := not_or.mp hunread
      obtain ⟨chars, hchars⟩ := List.head?_eq_some_iff.mp (not_not.mp hopen)
      rw [hchars] at hquote
      obtain ⟨text, encoded, back, hescapes, rfl⟩ :=
        exists_escapes_of_hasOpenQuote (not_not.mp hquote)
      have htakes := quotedText_takes rules hescapes hchars
      refine ⟨_, htakes.2, fun _ => ⟨text, encoded, hescapes, rfl, ?_⟩, ?_⟩
      · rw [hchars, Match.taken, chars_drop_quoted hchars]
        rfl
      · exact iff_of_false (by simp [htakes.failed_eq]) hunread

-- The quote and the backslash are escaped, and so is a letter, which need not be.
theorem quoted_text_is_unescaped_behind_backslashes :
    let view := View.ofText "\"\\\"\\a\\\\\" rest" ""
    quotedText.parser (fun _ => stalled) view = pure (.taken view 8 (.str "\"a\\")) ∧
      (view.drop 8).chars = " rest".toList := by
  have hescapes : Escapes [doubleQuote, 'a', backslash]
      [backslash, doubleQuote, backslash, 'a', backslash, backslash] :=
    .escaped _ (.escaped _ (.escaped _ .nil))
  exact (quoted_text_is_unescaped (fun _ => stalled) (.ofText "\"\\\"\\a\\\\\" rest" "")).1 _ _ _
    hescapes (by decide)

end Abacus.Pattern
