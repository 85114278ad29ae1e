import Abacus.Proofs.Parsing.Answers
import Abacus.Proofs.Parsing.Reads

namespace Abacus.Pattern

open Abacus.Parser

variable {rules : RuleName → Parser} {view : View} {chars shared behind rest : List Char}
  {c expected : Char} {text : String}

def expectedCharacter (c : Char) : String := "character " ++ Text.quoted (String.singleton c)

theorem text_lacking_character (expected found : Char) (back : List Char) :
    (lacking (expectedCharacter expected) (found :: back)).text =
      Text.quoted (String.singleton found) ++ " does not match expected character " ++
        Text.quoted (String.singleton expected) := by
  have hwords : " does not match expected character " =
      " does not match expected " ++ "character " := by decide +kernel
  rw [hwords, ← String.append_assoc, String.append_assoc]
  rfl

theorem character_takes (hchars : view.chars = c :: rest) :
    Takes ((character c).parser rules) view 1 (.str (String.singleton c)) :=
  satisfy_takes hchars (by simp)

theorem character_refuses (h : view.chars.head? ≠ some c) :
    (character c).parser rules view =
      pure (.failure view (lacking (expectedCharacter c) view.chars)) := by
  have hnone : characterMatch (fun d => d = c) (expectedCharacter c) view =
      .failure view (lacking (expectedCharacter c) view.chars) := by
    apply characterMatch_eq_failure
    intro d hd
    have hne : d ≠ c := fun heq => h (heq ▸ hd)
    simpa using hne
  rw [← hnone]
  exact satisfy_answers _ _ view

theorem character_fails (h : view.chars.head? ≠ some c) :
    Fails ((character c).parser rules) view := ⟨_, rfl, character_refuses h⟩

theorem character_reads (c : Char) (view : View) :
    Reads ((character c).parser rules) view fun text value =>
      text = [c] ∧ value = .str (String.ofList [c]) := by
  apply (satisfy_reads _ _).mono
  rintro text value ⟨c', hc', rfl, rfl⟩
  obtain rfl : c' = c := by simpa using hc'
  exact ⟨rfl, rfl⟩

-- The longest text that two texts begin with.
structure SharedFront (front chars shared : List Char) : Prop where
  ofFront : shared <+: front
  ofChars : shared <+: chars
  longest : ∀ other, other <+: front → other <+: chars → other.length ≤ shared.length

-- Two texts share what stands in front of the first character that differs.
theorem sharedFront_of_difference (hdiffers : rest.head? ≠ some expected) :
    SharedFront (shared ++ expected :: behind) (shared ++ rest) shared := by
  refine ⟨List.prefix_append _ _, List.prefix_append _ _, fun other hfront hchars => ?_⟩
  by_contra hlonger
  obtain ⟨more, rfl⟩ := List.prefix_of_prefix_length_le (List.prefix_append shared rest) hchars
    (by omega)
  rw [List.prefix_append_right_inj] at hfront hchars
  cases more with
  | nil => simp at hlonger
  | cons d more =>
    obtain ⟨rfl, -⟩ := List.cons_prefix_cons.mp hfront
    obtain ⟨back, rfl⟩ := hchars
    exact hdiffers rfl

theorem exists_difference {front : List Char} (h : ¬front <+: chars) :
    ∃ shared expected behind rest, front = shared ++ expected :: behind ∧ chars = shared ++ rest ∧
      rest.head? ≠ some expected := by
  induction front generalizing chars with
  | nil => exact absurd List.nil_prefix h
  | cons d front ih =>
    by_cases hhead : chars.head? = some d
    · obtain ⟨back, rfl⟩ := List.head?_eq_some_iff.mp hhead
      have hback : ¬front <+: back := fun hbegins => h (List.cons_prefix_cons.mpr ⟨rfl, hbegins⟩)
      obtain ⟨shared, expected, behind, rest, rfl, rfl, hdiffers⟩ := ih hback
      exact ⟨d :: shared, expected, behind, rest, rfl, rfl, hdiffers⟩
    · exact ⟨[], d, front, chars, rfl, rfl, hhead⟩

theorem wordChars_takes (hchars : view.chars = chars ++ rest) :
    Takes ((wordChars chars).parser rules) view chars.length (.str (String.ofList chars)) := by
  induction chars generalizing view with
  | nil => exact always_takes rfl
  | cons c chars ih =>
    rw [List.length_cons, Nat.add_comm]
    refine seq_takes (character_takes hchars) (ih (View.chars_drop_one hchars)) ?_ rfl
    rw [String.ofList_cons]
    rfl

-- The complaint is that about the first character that differs. Each character in front of it is an
-- outer attempt, which keeps the complaint and the offset.
theorem wordChars_refuses (hchars : view.chars = shared ++ rest)
    (hdiffers : rest.head? ≠ some expected) :
    (wordChars (shared ++ expected :: behind)).parser rules view =
      pure (.failureAt view (lacking (expectedCharacter expected) rest)
        (view.drop shared.length).pos) := by
  induction shared generalizing view with
  | nil =>
    rw [List.nil_append] at hchars
    have hcharacter : (character expected).parser rules view = _ :=
      character_refuses (hchars ▸ hdiffers)
    rw [hchars] at hcharacter
    rw [List.length_nil, View.drop_zero]
    exact seq_eq_rebase hcharacter rfl
  | cons c shared ih =>
    have htakes : Takes ((character c).parser rules) view 1 _ := character_takes hchars
    have hbehind := ih (View.chars_drop_one hchars)
    rw [View.drop_drop, Nat.add_comm] at hbehind
    exact seq_eq_rebase_right htakes.2 htakes.failed_eq hbehind rfl

theorem word_takes (h : text.toList <+: view.chars) :
    Takes ((word text).parser rules) view text.toList.length (.str text) := by
  obtain ⟨rest, hchars⟩ := h
  have htakes : Takes ((wordChars text.toList).parser rules) view _ _ :=
    wordChars_takes hchars.symm
  rw [String.ofList_toList] at htakes
  exact reword_takes htakes

theorem word_refuses (htext : text.toList = shared ++ expected :: behind)
    (hchars : view.chars = shared ++ rest) (hdiffers : rest.head? ≠ some expected) :
    (word text).parser rules view =
      pure (.failureAt view (.framed "" (lacking (expectedCharacter expected) rest)
        (", in keyword " ++ Text.quoted text)) (view.drop shared.length).pos) := by
  have hrefuses : (wordChars text.toList).parser rules view = _ :=
    htext ▸ wordChars_refuses hchars hdiffers
  exact reword_eq hrefuses rfl

theorem word_fails (h : ¬text.toList <+: view.chars) :
    Fails ((word text).parser rules) view := by
  obtain ⟨shared, expected, behind, rest, htext, hchars, hdiffers⟩ := exists_difference h
  exact ⟨_, rfl, word_refuses htext hchars hdiffers⟩

theorem word_reads (text : String) (view : View) :
    Reads ((word text).parser rules) view fun taken value =>
      taken = text.toList ∧ value = .str text := by
  by_cases h : text.toList <+: view.chars
  · have hlength := h.length_le
    rw [View.length_chars] at hlength
    exact .inr ⟨_, _, hlength, word_takes h, List.prefix_iff_eq_take.mp h |>.symm, rfl⟩
  · exact .inl (word_fails h)

-- A word is taken where it stands at the beginning, the empty word everywhere. A failure is that of
-- the view itself. It points behind what the word and the view share, and it says what character
-- stands there, if one does, which one the word has there, and what the word is.
theorem words_are_taken_whole (text : String) (rules : RuleName → Parser) (view : View) :
    ∃ result, (word text).parser rules view = pure result ∧
      (result.failed = false ↔ text.toList <+: view.chars) ∧
      (result.failed = false → result = .taken view text.toList.length (.str text)) ∧
      (result.failed = true → ∃ shared expected behind,
        SharedFront text.toList view.chars shared ∧ text.toList = shared ++ expected :: behind ∧
        result.rest = view ∧ result.start = view.pos ∧
        result.errorAt = (view.pos + shared.length : Nat) ∧
        (view.chars = shared → result.complaint.text =
          "reached end of input string" ++ ", in keyword " ++ Text.quoted text) ∧
        ∀ found back, view.chars = shared ++ found :: back → result.complaint.text =
          Text.quoted (String.singleton found) ++ " does not match expected character " ++
            Text.quoted (String.singleton expected) ++ ", in keyword " ++ Text.quoted text) := by
  by_cases hbegins : text.toList <+: view.chars
  · have htakes : Takes ((word text).parser rules) view _ _ := word_takes hbegins
    refine ⟨_, htakes.2, iff_of_true htakes.failed_eq hbegins, fun _ => rfl, fun hf => ?_⟩
    rw [htakes.failed_eq] at hf
    cases hf
  · obtain ⟨shared, expected, behind, rest, htext, hchars, hdiffers⟩ := exists_difference hbegins
    have hshared : SharedFront text.toList view.chars shared := by
      rw [htext, hchars]
      exact sharedFront_of_difference hdiffers
    have hinside : shared.length ≤ view.size := view.length_chars ▸ hshared.ofChars.length_le
    refine ⟨_, word_refuses htext hchars hdiffers, iff_of_false Bool.true_eq_false.mp hbegins,
      fun hok => (by cases hok), fun _ => ⟨shared, expected, behind, hshared, htext, rfl, rfl,
      congrArg Int.ofNat (View.pos_drop hinside), fun hends => ?_, fun found back hfound => ?_⟩⟩
    · obtain rfl : rest = [] := List.append_right_eq_self.mp (hchars.symm.trans hends)
      exact (Complaint.text_framed_behind _ _).trans String.append_assoc.symm
    · obtain rfl : rest = found :: back :=
        List.append_cancel_left (hchars.symm.trans hfound)
      rw [← text_lacking_character expected found back]
      exact (Complaint.text_framed_behind _ _).trans String.append_assoc.symm

-- The last character of the word stands in the text, but outside the view.
theorem words_are_taken_whole_within_a_view :
    ∃ result, (word "add").parser (fun _ => stalled) (.between (.of "" "xadd") 1 3) =
        pure result ∧ result.rest = .between (.of "" "xadd") 1 3 ∧ result.errorAt = 3 ∧
      result.complaint.text = "reached end of input string, in keyword 'add'" := by
  obtain ⟨result, hresult, htaken, -, hrefused⟩ :=
    words_are_taken_whole "add" (fun _ => stalled) (.between (.of "" "xadd") 1 3)
  have hchars : (View.between (.of "" "xadd") 1 3).chars = "ad".toList := by decide +kernel
  rw [hchars] at htaken hrefused
  have hf : result.failed = true := by
    rw [← Bool.not_eq_false, htaken]
    decide
  obtain ⟨shared, _, _, hshared, -, hrest, -, herror, hends, -⟩ := hrefused hf
  obtain rfl : shared = "ad".toList :=
    hshared.ofChars.eq_of_length_le (hshared.longest "ad".toList (by decide) List.prefix_rfl)
  have hquoted : "reached end of input string" ++ ", in keyword " ++ Text.quoted "add" =
      "reached end of input string, in keyword 'add'" := by decide +kernel
  exact ⟨result, hresult, hrest, herror, (hends rfl).trans hquoted⟩

end Abacus.Pattern
