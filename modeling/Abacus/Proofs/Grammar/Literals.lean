import Abacus.Proofs.Decimal.Reading
import Abacus.Proofs.Grammar.Tokens

namespace Abacus.Grammar

open Abacus.Pattern Abacus.Parser

variable {rules : RuleName → Parser} {view : View} {grouping : Bool}

def Digits (text : List Char) : Prop := text ≠ [] ∧ ∀ c ∈ text, c.isDigit = true

-- The whole part of a number. With grouping, a comma may stand between two of its digits.
inductive Whole (grouping : Bool) : List Char → Prop
  | digit {c : Char} : c.isDigit = true → Whole grouping [c]
  | further {c : Char} {rest : List Char} :
      c.isDigit = true → Whole grouping rest → Whole grouping (c :: rest)
  | grouped {c : Char} {rest : List Char} :
      grouping = true → c.isDigit = true → Whole grouping rest → Whole grouping (c :: ',' :: rest)

inductive Literal (grouping : Bool) : List Char → Prop
  | whole {text : List Char} : Whole grouping text → Literal grouping text
  | mixed {text digits : List Char} :
      Whole grouping text → Digits digits → Literal grouping (text ++ '.' :: digits)
  | fraction {digits : List Char} : Digits digits → Literal grouping ('.' :: digits)

-- The number that a literal stands for, once its commas are gone.
def literalValue? (text : List Char) : Option Float :=
  Decimal.readFloat? (String.ofList (text.filter (· ≠ ',')))

-- Whether a literal ends in front of this text.
def EndsLiteral (grouping : Bool) (rest : List Char) : Prop :=
  ∀ c ∈ rest.head?, c.isDigit = false ∧ c ≠ '.' ∧ (grouping = true → c ≠ ',')

theorem contains_digits (c : Char) : "0123456789".toList.contains c = c.isDigit := by
  rw [Bool.eq_iff_iff]
  constructor
  · intro h
    have hall : "0123456789".toList.all Char.isDigit = true := by decide
    exact List.all_eq_true.mp hall c (List.contains_iff_mem.mp h)
  · intro h
    have hc := Decimal.toNat_of_isDigit h
    have hall : ∀ n < 58, 48 ≤ n → "0123456789".toList.contains (Char.ofNat n) = true := by
      decide
    have := hall c.toNat (by omega) hc.1
    rwa [Char.ofNat_toNat] at this

theorem digit_takes {c : Char} {rest : List Char} (hc : c.isDigit = true)
    (hchars : view.chars = c :: rest) :
    Takes (digit.parser rules) view 1 (.str (String.singleton c)) :=
  satisfy_takes hchars (by rw [contains_digits]; exact hc)

theorem digit_fails (h : ∀ c ∈ view.chars.head?, c.isDigit = false) :
    Fails (digit.parser rules) view :=
  satisfy_fails fun c hc => by rw [contains_digits]; exact h c hc

theorem digit_reads (view : View) :
    Reads (digit.parser rules) view fun text value =>
      ∃ c : Char, c.isDigit = true ∧ text = [c] ∧ value = .str (String.ofList text) := by
  apply (satisfy_reads _ _).mono
  rintro text value ⟨c, hc, rfl, rfl⟩
  exact ⟨c, contains_digits c ▸ hc, rfl, rfl⟩

theorem digits_takes {text rest : List Char} (htext : Digits text)
    (hchars : view.chars = text ++ rest) (hrest : ∀ c ∈ rest.head?, c.isDigit = false) :
    Takes ((many1 digit .joining).parser rules) view text.length (.str (String.ofList text)) :=
  many1_satisfy_takes htext.1 (fun c hc => by rw [contains_digits]; exact htext.2 c hc) hchars
    fun c hc => by rw [contains_digits]; exact hrest c hc

theorem digits_reads (view : View) :
    Reads ((many1 digit .joining).parser rules) view fun text value =>
      Digits text ∧ value = .str (String.ofList text) := by
  refine many1_reads digit_reads ?_ ?_ ?_
  · rintro text value ⟨c, _, rfl, _⟩
    simp
  · rintro text value ⟨c, hc, rfl, rfl⟩
    exact ⟨⟨by simp, by simpa using hc⟩, rfl⟩
  · rintro text value text' value' ⟨c, hc, rfl, rfl⟩ ⟨⟨_, hdigits⟩, rfl⟩
    refine ⟨_, Value.add_str _ _, rfl, ⟨by simp, ?_⟩, by rw [← String.ofList_append]⟩
    simpa using ⟨hc, hdigits⟩

-- What may follow the first digit of a whole part: a digit, with a comma in front if those group.
def FurtherDigit (grouping : Bool) (piece : List Char) : Prop :=
  ∃ c : Char, c.isDigit = true ∧ (piece = [c] ∨ grouping = true ∧ piece = [',', c])

theorem FurtherDigit.ne_nil {piece : List Char} (h : FurtherDigit grouping piece) : piece ≠ [] := by
  obtain ⟨c, _, rfl | ⟨_, rfl⟩⟩ := h <;> simp

def FurtherDigits (grouping : Bool) (text : List Char) : Prop :=
  ∃ pieces : List (List Char), text = pieces.flatten ∧ ∀ piece ∈ pieces, FurtherDigit grouping piece

theorem whole_of_pieces {c : Char} (hc : c.isDigit = true) {pieces : List (List Char)}
    (h : ∀ piece ∈ pieces, FurtherDigit grouping piece) : Whole grouping (c :: pieces.flatten) := by
  induction pieces generalizing c with
  | nil => exact .digit hc
  | cons piece pieces ih =>
    obtain ⟨d, hd, hpiece⟩ := h piece List.mem_cons_self
    have hrest := ih hd fun piece' h' => h piece' (List.mem_cons_of_mem _ h')
    rcases hpiece with rfl | ⟨hgrouping, rfl⟩
    · exact .further hc hrest
    · exact .grouped hgrouping hc hrest

theorem Whole.exists_pieces {text : List Char} (h : Whole grouping text) :
    ∃ (c : Char) (pieces : List (List Char)), c.isDigit = true ∧ text = c :: pieces.flatten ∧
      ∀ piece ∈ pieces, FurtherDigit grouping piece := by
  induction h with
  | @digit c hc => exact ⟨c, [], hc, rfl, by simp⟩
  | @further c rest hc _ ih =>
    obtain ⟨d, pieces, hd, rfl, hpieces⟩ := ih
    exact ⟨c, [d] :: pieces, hc, rfl, List.forall_mem_cons.mpr ⟨⟨d, hd, .inl rfl⟩, hpieces⟩⟩
  | @grouped c rest hgrouping hc _ ih =>
    obtain ⟨d, pieces, hd, rfl, hpieces⟩ := ih
    exact ⟨c, [',', d] :: pieces, hc, rfl,
      List.forall_mem_cons.mpr ⟨⟨d, hd, .inr ⟨hgrouping, rfl⟩⟩, hpieces⟩⟩

def furtherDigit (grouping : Bool) : Pattern :=
  if grouping then alt digit (seq comma digit .joining) else digit

def wholePattern (grouping : Bool) : Pattern :=
  seq digit (many (furtherDigit grouping) .joining) .joining

def fractionPattern : Pattern := seq point (many1 digit .joining) .joining

theorem numeral_eq (grouping : Bool) :
    numeral grouping =
      reword (mapValue (eitherOrBoth (wholePattern grouping) fractionPattern .joining) numberValue)
        fun complaint => .framed "" complaint " (expected a number)" := rfl

theorem furtherDigit_takes {piece rest : List Char} (h : FurtherDigit grouping piece)
    (hchars : view.chars = piece ++ rest) :
    Takes ((furtherDigit grouping).parser rules) view piece.length
      (.str (String.ofList piece)) := by
  obtain ⟨c, hc, rfl | ⟨rfl, rfl⟩⟩ := h
  · cases grouping with
    | false => exact digit_takes hc hchars
    | true => exact alt_takes_left (digit_takes hc hchars)
  · have hdrop : (view.drop 1).chars = c :: rest := View.chars_drop_one hchars
    refine alt_takes_right (digit_fails ?_) ?_
    · rw [hchars]
      rintro d ⟨⟩
      decide
    · refine seq_takes (character_takes hchars) (digit_takes hc hdrop) ?_ rfl
      rw [String.ofList_cons]
      rfl

-- Neither a digit nor, where commas group, a comma with a digit behind it.
theorem furtherDigit_fails_of_head (hhead : ∀ c ∈ view.chars.head?, c.isDigit = false)
    (hcomma : grouping = true → ∀ c back, view.chars = ',' :: c :: back → c.isDigit = false) :
    Fails ((furtherDigit grouping).parser rules) view := by
  have hdigit : Fails (digit.parser rules) view := digit_fails hhead
  cases grouping with
  | false => exact hdigit
  | true =>
    refine alt_fails hdigit ?_
    by_cases h : view.chars.head? = some ','
    · obtain ⟨back, hback⟩ := List.head?_eq_some_iff.mp h
      refine seq_fails_right (character_takes hback) (digit_fails fun c hc => ?_)
      rw [View.chars_drop_one hback] at hc
      obtain ⟨back', rfl⟩ := List.head?_eq_some_iff.mp hc
      exact hcomma rfl c back' hback
    · exact seq_fails_left (character_fails h)

theorem furtherDigit_fails
    (h : ∀ c ∈ view.chars.head?, c.isDigit = false ∧ (grouping = true → c ≠ ',')) :
    Fails ((furtherDigit grouping).parser rules) view := by
  refine furtherDigit_fails_of_head (fun c hc => (h c hc).1) fun hgrouping c back hback => ?_
  exact absurd rfl ((h ',' (by rw [hback]; rfl)).2 hgrouping)

theorem furtherDigit_reads (view : View) :
    Reads ((furtherDigit grouping).parser rules) view fun text value =>
      FurtherDigit grouping text ∧ value = .str (String.ofList text) := by
  have hdigit : Reads (digit.parser rules) view fun text value =>
      FurtherDigit grouping text ∧ value = .str (String.ofList text) := by
    apply (digit_reads view).mono
    rintro text value ⟨c, hc, rfl, rfl⟩
    exact ⟨⟨c, hc, .inl rfl⟩, rfl⟩
  cases grouping with
  | false => exact hdigit
  | true =>
    refine alt_reads hdigit (seq_reads (character_reads ',' view) (fun _ _ _ _ => digit_reads _) ?_)
    rintro text value text' value' ⟨rfl, rfl⟩ ⟨c, hc, rfl, rfl⟩
    exact ⟨_, Value.add_str _ _, rfl, ⟨c, hc, .inr ⟨rfl, rfl⟩⟩, by rw [← String.ofList_append]⟩

-- The whole part ends where no further digit is read.
theorem wholePattern_takes_of_stop {text rest : List Char} (htext : Whole grouping text)
    (hchars : view.chars = text ++ rest)
    (hstop : ∀ v : View, v.chars = rest → Fails ((furtherDigit grouping).parser rules) v) :
    Takes ((wholePattern grouping).parser rules) view text.length
      (.str (String.ofList text)) := by
  obtain ⟨c, pieces, hc, rfl, hpieces⟩ := htext.exists_pieces
  have hdrop : (view.drop 1).chars = pieces.flatten ++ rest := View.chars_drop_one hchars
  have hmany : Takes ((many (furtherDigit grouping) .joining).parser rules) (view.drop 1)
      pieces.flatten.length (.str (String.ofList pieces.flatten)) := by
    by_cases hne : pieces = []
    · subst hne
      exact optionally_takes_none (many1_fails (hstop _ hdrop))
    · exact optionally_takes (many1_takes_pieces pieces hne (fun piece h => (hpieces piece h).ne_nil)
        hdrop (fun piece h v after hv => furtherDigit_takes (hpieces piece h) hv) hstop)
  rw [List.length_cons, Nat.add_comm]
  refine seq_takes (digit_takes hc hchars) hmany ?_ rfl
  rw [String.ofList_cons]
  rfl

theorem wholePattern_takes {text rest : List Char} (htext : Whole grouping text)
    (hchars : view.chars = text ++ rest)
    (hrest : ∀ c ∈ rest.head?, c.isDigit = false ∧ (grouping = true → c ≠ ',')) :
    Takes ((wholePattern grouping).parser rules) view text.length
      (.str (String.ofList text)) :=
  wholePattern_takes_of_stop htext hchars fun _ hv => furtherDigit_fails (hv ▸ hrest)

theorem wholePattern_fails (h : ∀ c ∈ view.chars.head?, c.isDigit = false) :
    Fails ((wholePattern grouping).parser rules) view := seq_fails_left (digit_fails h)

theorem furtherDigits_reads (view : View) :
    Reads ((many (furtherDigit grouping) .joining).parser rules) view fun text value =>
      FurtherDigits grouping text ∧ value = .str (String.ofList text) := by
  have hmany1 : Reads ((many1 (furtherDigit grouping) .joining).parser rules) view
      fun text value => FurtherDigits grouping text ∧ value = .str (String.ofList text) := by
    refine many1_reads furtherDigit_reads (fun _ _ h => h.1.ne_nil) ?_ ?_
    · exact fun text value h => ⟨⟨[text], by simp, by simpa using h.1⟩, h.2⟩
    · rintro text value text' value' ⟨hpiece, rfl⟩ ⟨⟨pieces, rfl, hpieces⟩, rfl⟩
      exact ⟨_, Value.add_str _ _, rfl,
        ⟨text :: pieces, rfl, List.forall_mem_cons.mpr ⟨hpiece, hpieces⟩⟩,
        by rw [← String.ofList_append]⟩
  apply (optionally_reads hmany1).mono
  rintro text value (h | ⟨rfl, rfl⟩)
  · exact h
  · exact ⟨⟨[], rfl, by simp⟩, rfl⟩

theorem wholePattern_reads (view : View) :
    Reads ((wholePattern grouping).parser rules) view fun text value =>
      Whole grouping text ∧ value = .str (String.ofList text) := by
  apply seq_reads (digit_reads view) (fun _ _ _ _ => furtherDigits_reads _)
  rintro text value text' value' ⟨c, hc, rfl, rfl⟩ ⟨⟨pieces, rfl, hpieces⟩, rfl⟩
  exact ⟨_, Value.add_str _ _, rfl, whole_of_pieces hc hpieces, by rw [← String.ofList_append]⟩

theorem fractionPattern_takes {digits rest : List Char} (hdigits : Digits digits)
    (hchars : view.chars = '.' :: digits ++ rest)
    (hrest : ∀ c ∈ rest.head?, c.isDigit = false) :
    Takes (fractionPattern.parser rules) view ('.' :: digits).length
      (.str (String.ofList ('.' :: digits))) := by
  have hdrop : (view.drop 1).chars = digits ++ rest := View.chars_drop_one hchars
  rw [List.length_cons, Nat.add_comm]
  refine seq_takes (character_takes hchars) (digits_takes hdigits hdrop hrest) ?_ rfl
  rw [String.ofList_cons]
  rfl

theorem fractionPattern_reads (view : View) :
    Reads (fractionPattern.parser rules) view fun text value =>
      (∃ digits, Digits digits ∧ text = '.' :: digits) ∧ value = .str (String.ofList text) := by
  apply seq_reads (character_reads '.' view) (fun _ _ _ _ => digits_reads _)
  rintro text value text' value' ⟨rfl, rfl⟩ ⟨hdigits, rfl⟩
  exact ⟨_, Value.add_str _ _, rfl, ⟨text', hdigits, rfl⟩, by rw [← String.ofList_append]⟩

theorem Digits.filter_comma {text : List Char} (h : ∀ c ∈ text, c.isDigit = true) :
    text.filter (· ≠ ',') = text := by
  apply List.filter_eq_self.mpr
  intro c hc
  have hne : c ≠ ',' := by
    rintro rfl
    exact absurd (h ',' hc) (by decide)
  simpa using hne

theorem Whole.digits_filter {text : List Char} (h : Whole grouping text) :
    Digits (text.filter (· ≠ ',')) := by
  have hkeep : ∀ {c : Char} {rest : List Char}, c.isDigit = true →
      (c :: rest).filter (· ≠ ',') = c :: rest.filter (· ≠ ',') := by
    intro c rest hc
    have hne : c ≠ ',' := by
      rintro rfl
      exact absurd hc (by decide)
    simp [hne]
  induction h with
  | digit hc =>
    rw [hkeep hc]
    exact ⟨by simp, by simpa using hc⟩
  | further hc _ ih =>
    rw [hkeep hc]
    exact ⟨by simp, List.forall_mem_cons.mpr ⟨hc, ih.2⟩⟩
  | grouped _ hc _ ih =>
    rw [hkeep hc]
    have hcomma : ∀ rest : List Char, (',' :: rest).filter (· ≠ ',') = rest.filter (· ≠ ',') := by
      simp
    rw [hcomma]
    exact ⟨by simp, List.forall_mem_cons.mpr ⟨hc, ih.2⟩⟩

theorem Digits.whole {digits : List Char} (h : Digits digits) : Whole grouping digits := by
  obtain ⟨hne, hdigits⟩ := h
  induction digits with
  | nil => exact absurd rfl hne
  | cons c digits ih =>
    obtain ⟨hc, hrest⟩ := List.forall_mem_cons.mp hdigits
    by_cases hdigits : digits = []
    · subst hdigits
      exact .digit hc
    · exact .further hc (ih hdigits hrest)

-- Digits alone, or with a point among them or in front of them.
inductive PlainDecimal : List Char → Prop
  | whole {digits : List Char} : Digits digits → PlainDecimal digits
  | mixed {digits digits' : List Char} :
      Digits digits → Digits digits' → PlainDecimal (digits ++ '.' :: digits')
  | fraction {digits : List Char} : Digits digits → PlainDecimal ('.' :: digits)

-- What is left of a literal without its commas.
theorem Literal.plainDecimal {text : List Char} (h : Literal grouping text) :
    PlainDecimal (text.filter (· ≠ ',')) := by
  cases h with
  | whole hwhole => exact .whole hwhole.digits_filter
  | @mixed whole digits hwhole hfraction =>
    have hfilter : (whole ++ '.' :: digits).filter (· ≠ ',') =
        whole.filter (· ≠ ',') ++ '.' :: digits := by
      rw [List.filter_append, List.filter_cons_of_pos (by decide), Digits.filter_comma hfraction.2]
    rw [hfilter]
    exact .mixed hwhole.digits_filter hfraction
  | @fraction digits hfraction =>
    rw [List.filter_cons_of_pos (by decide), Digits.filter_comma hfraction.2]
    exact .fraction hfraction

theorem PlainDecimal.exists_value {text : List Char} (h : PlainDecimal text) :
    ∃ x, Decimal.readFloat? (String.ofList text) = some x := by
  cases h with
  | whole hdigits =>
    obtain ⟨x, hx⟩ := Decimal.exists_readFloat?_of_decimal hdigits.2 (List.forall_mem_nil _)
      (fun h => hdigits.1 (List.append_eq_nil_iff.mp h).1) fun _ : false = false => rfl
    exact ⟨x, by simpa using hx⟩
  | mixed hdigits hdigits' =>
    obtain ⟨x, hx⟩ := Decimal.exists_readFloat?_of_decimal hdigits.2 hdigits'.2
      (fun h => hdigits.1 (List.append_eq_nil_iff.mp h).1) fun h : true = false => nomatch h
    exact ⟨x, hx⟩
  | fraction hdigits =>
    obtain ⟨x, hx⟩ := Decimal.exists_readFloat?_of_decimal (List.forall_mem_nil _) hdigits.2
      (fun h => hdigits.1 (List.append_eq_nil_iff.mp h).2) fun h : true = false => nomatch h
    exact ⟨x, hx⟩

-- Every literal has a value.
theorem Literal.exists_value {text : List Char} (h : Literal grouping text) :
    ∃ x, literalValue? text = some x := h.plainDecimal.exists_value

theorem numberValue_of_literal {text : List Char} {x : Float} (h : literalValue? text = some x) :
    numberValue (.str (String.ofList text)) = .ok (.number x) := by
  have hread : Decimal.readFloat? (String.ofList (text.filter (· ≠ ','))) = some x := h
  simp only [numberValue, String.toList_ofList, hread]

theorem Whole.append {text piece : List Char} (h : Whole grouping text)
    (hpiece : FurtherDigit grouping piece) : Whole grouping (text ++ piece) := by
  obtain ⟨c, pieces, hc, rfl, hpieces⟩ := h.exists_pieces
  have hall : ∀ piece' ∈ pieces ++ [piece], FurtherDigit grouping piece' := by
    simpa only [List.forall_mem_append, List.forall_mem_singleton] using ⟨hpieces, hpiece⟩
  simpa using whole_of_pieces hc hall

theorem Digits.append {digits : List Char} {c : Char} (h : Digits digits) (hc : c.isDigit = true) :
    Digits (digits ++ [c]) := by
  refine ⟨by simp, ?_⟩
  simpa only [List.forall_mem_append, List.forall_mem_singleton] using ⟨h.2, hc⟩

theorem Whole.char_of_mem {text : List Char} (h : Whole grouping text) :
    ∀ c ∈ text, c.isDigit = true ∨ grouping = true ∧ c = ',' := by
  induction h <;> simp_all

theorem Literal.char_of_mem {text : List Char} (h : Literal grouping text) :
    ∀ c ∈ text, c.isDigit = true ∨ c = '.' ∨ grouping = true ∧ c = ',' := by
  have hwhole : ∀ whole, Whole grouping whole →
      ∀ c ∈ whole, c.isDigit = true ∨ c = '.' ∨ grouping = true ∧ c = ',' :=
    fun whole h c hc => (h.char_of_mem c hc).imp_right .inr
  have hdigits : ∀ digits, Digits digits →
      ∀ c ∈ digits, c.isDigit = true ∨ c = '.' ∨ grouping = true ∧ c = ',' :=
    fun digits h c hc => .inl (h.2 c hc)
  cases h with
  | whole h => exact hwhole _ h
  | mixed h h' =>
    exact List.forall_mem_append.mpr
      ⟨hwhole _ h, List.forall_mem_cons.mpr ⟨.inr (.inl rfl), hdigits _ h'⟩⟩
  | fraction h => exact List.forall_mem_cons.mpr ⟨.inr (.inl rfl), hdigits _ h⟩

-- What a literal begins with: a digit, or a point with a digit behind it.
def BeginsLiteral (chars : List Char) : Prop :=
  (∃ c back, chars = c :: back ∧ c.isDigit = true) ∨
    ∃ c back, chars = '.' :: c :: back ∧ c.isDigit = true

theorem Literal.begins {chars text : List Char} (h : Literal grouping text)
    (hstarts : text <+: chars) : BeginsLiteral chars := by
  have hwhole : ∀ whole back, Whole grouping whole → BeginsLiteral (whole ++ back) := by
    intro whole back hwhole
    obtain ⟨c, pieces, hc, rfl, -⟩ := hwhole.exists_pieces
    exact .inl ⟨c, _, rfl, hc⟩
  obtain ⟨rest, rfl⟩ := hstarts
  cases h with
  | whole h => exact hwhole _ _ h
  | mixed h _ =>
    rw [List.append_assoc]
    exact hwhole _ _ h
  | @fraction digits h =>
    obtain ⟨c, back, rfl⟩ := List.exists_cons_of_ne_nil h.1
    exact .inr ⟨c, _, rfl, h.2 c List.mem_cons_self⟩

theorem BeginsLiteral.exists_literal {chars : List Char} (h : BeginsLiteral chars)
    (grouping : Bool) : ∃ text, text <+: chars ∧ Literal grouping text := by
  rcases h with ⟨c, back, rfl, hc⟩ | ⟨c, back, rfl, hc⟩
  · exact ⟨[c], ⟨back, rfl⟩, .whole (.digit hc)⟩
  · exact ⟨['.', c], ⟨back, rfl⟩, .fraction ⟨List.cons_ne_nil _ _, by simpa using hc⟩⟩

-- The longest beginning of a text that is a literal.
structure LongestLiteral (grouping : Bool) (chars text : List Char) : Prop where
  literal : Literal grouping text
  starts : text <+: chars
  longest : ∀ other, Literal grouping other → other <+: chars → other.length ≤ text.length

theorem exists_longestLiteral {chars text : List Char} (h : Literal grouping text)
    (hstarts : text <+: chars) : ∃ longest, LongestLiteral grouping chars longest := by
  classical
  let literalAt : Nat → Prop := fun count => Literal grouping (chars.take count)
  have hat : ∀ {other}, Literal grouping other → other <+: chars → literalAt other.length :=
    fun hother hstarts => (List.prefix_iff_eq_take.mp hstarts).subst hother
  have hgreatest : literalAt (Nat.findGreatest literalAt chars.length) :=
    Nat.findGreatest_spec hstarts.length_le (hat h hstarts)
  refine ⟨_, hgreatest, List.take_prefix _ _, fun other hother hstarts => ?_⟩
  rw [List.length_take, Nat.min_eq_left (Nat.findGreatest_le _)]
  exact Nat.le_findGreatest hstarts.length_le (hat hother hstarts)

theorem LongestLiteral.unique {chars text text' : List Char}
    (h : LongestLiteral grouping chars text) (h' : LongestLiteral grouping chars text') :
    text = text' :=
  (List.prefix_of_prefix_length_le h.starts h'.starts
    (h'.longest text h.literal h.starts)).eq_of_length_le (h.longest text' h'.literal h'.starts)

theorem LongestLiteral.not_literal {text rest more : List Char}
    (h : LongestLiteral grouping (text ++ rest) text) (hmore : more <+: rest) (hne : more ≠ []) :
    ¬Literal grouping (text ++ more) := by
  intro hliteral
  have hlength := h.longest _ hliteral ((List.prefix_append_right_inj text).mpr hmore)
  rw [List.length_append] at hlength
  have := List.length_pos_iff.mpr hne
  omega

theorem LongestLiteral.no_digit {front digits rest : List Char}
    (h : LongestLiteral grouping (front ++ '.' :: digits ++ rest) (front ++ '.' :: digits))
    (hdigits : Digits digits)
    (hfront : ∀ digits', Digits digits' → Literal grouping (front ++ '.' :: digits')) :
    ∀ c ∈ rest.head?, c.isDigit = false := by
  intro c hc
  obtain ⟨back, rfl⟩ := List.head?_eq_some_iff.mp hc
  rw [Bool.eq_false_iff]
  intro hdigit
  have hmore : ¬Literal grouping (front ++ '.' :: digits ++ [c]) :=
    h.not_literal ⟨back, rfl⟩ (List.cons_ne_nil _ _)
  rw [List.append_assoc, List.cons_append] at hmore
  exact hmore (hfront _ (hdigits.append hdigit))

-- A literal is the longest one in front of what does not go on with it.
theorem Literal.longest {text rest : List Char} (h : Literal grouping text)
    (hrest : EndsLiteral grouping rest) : LongestLiteral grouping (text ++ rest) text := by
  refine ⟨h, List.prefix_append _ _, fun other hother hstarts => ?_⟩
  by_contra hlt
  obtain ⟨more, rfl⟩ := List.prefix_of_prefix_length_le (List.prefix_append text rest) hstarts
    (by omega)
  cases more with
  | nil => simp at hlt
  | cons c more =>
    have hhead : c ∈ rest.head? := by
      obtain ⟨back, rfl⟩ := (List.prefix_append_right_inj text).mp hstarts
      rfl
    obtain ⟨hdigit, hpoint, hcomma⟩ := hrest c hhead
    rcases hother.char_of_mem c (by simp) with h | h | ⟨hgrouping, h⟩
    · rw [hdigit] at h
      cases h
    · exact hpoint h
    · exact hcomma hgrouping h

theorem numeral_takes_longest {text : List Char} {x : Float}
    (h : LongestLiteral grouping view.chars text) (hx : literalValue? text = some x) :
    Takes ((numeral grouping).parser rules) view text.length (.number x) := by
  rw [numeral_eq]
  refine reword_takes (mapValue_takes ?_ (numberValue_of_literal hx) rfl)
  obtain ⟨rest, hchars⟩ := h.starts
  rw [← hchars] at h
  replace hchars := hchars.symm
  cases h.literal with
  | whole hwhole =>
    -- One more digit, or a fraction, would make a longer literal.
    have htakes : Takes ((wholePattern grouping).parser rules) view text.length
        (.str (String.ofList text)) := by
      refine wholePattern_takes_of_stop hwhole hchars fun v hv => ?_
      refine (furtherDigit_reads v).fails fun piece value hstarts ⟨hpiece, _⟩ => ?_
      exact h.not_literal (hv ▸ hstarts) hpiece.ne_nil (.whole (hwhole.append hpiece))
    have hdrop : (view.drop text.length).chars = rest := View.chars_drop_length hchars
    have hfraction : Fails (fractionPattern.parser rules) (view.drop text.length) := by
      refine (fractionPattern_reads _).fails fun piece value hstarts hpiece => ?_
      obtain ⟨⟨digits, hdigits, rfl⟩, -⟩ := hpiece
      exact h.not_literal (hdrop ▸ hstarts) (List.cons_ne_nil _ _) (.mixed hwhole hdigits)
    exact alt_takes_right (seq_fails_right htakes hfraction) (alt_takes_left htakes)
  | @mixed whole digits hwhole hdigits =>
    have hend := h.no_digit hdigits fun _ => .mixed hwhole
    rw [List.append_assoc] at hchars
    have htakes : Takes ((wholePattern grouping).parser rules) view whole.length
        (.str (String.ofList whole)) := by
      apply wholePattern_takes hwhole hchars
      rintro c ⟨⟩
      exact ⟨by decide, fun _ => by decide⟩
    have hdrop : (view.drop whole.length).chars = '.' :: digits ++ rest :=
      View.chars_drop_length hchars
    rw [List.length_append]
    refine alt_takes_left (seq_takes htakes (fractionPattern_takes hdigits hdrop hend) ?_ rfl)
    rw [String.ofList_append]
    rfl
  | @fraction digits hdigits =>
    have hlongest : LongestLiteral grouping ([] ++ '.' :: digits ++ rest) ([] ++ '.' :: digits) := h
    have hend := hlongest.no_digit hdigits fun _ => .fraction
    have hfails : Fails ((wholePattern grouping).parser rules) view := by
      apply wholePattern_fails
      rw [hchars]
      rintro c ⟨⟩
      decide
    exact alt_takes_right (seq_fails_left hfails)
      (alt_takes_right hfails (fractionPattern_takes hdigits hchars hend))

-- What follows the literal does not go on with it.
theorem numeral_takes {text rest : List Char} {x : Float} (htext : Literal grouping text)
    (hx : literalValue? text = some x) (hchars : view.chars = text ++ rest)
    (hrest : EndsLiteral grouping rest) :
    Takes ((numeral grouping).parser rules) view text.length (.number x) :=
  numeral_takes_longest (hchars ▸ htext.longest hrest) hx

-- Of two literals at one place, each of which ends there, neither is longer than the other.
theorem Literal.unique {text text' rest rest' : List Char} (h : Literal grouping text)
    (h' : Literal grouping text') (hrest : EndsLiteral grouping rest)
    (hrest' : EndsLiteral grouping rest') (heq : text ++ rest = text' ++ rest') : rest = rest' := by
  have hsame := (h.longest hrest).unique (heq ▸ h'.longest hrest')
  rwa [← hsame, List.append_cancel_left_eq] at heq

-- A numeral before it is turned into a number.
theorem literal_reads (view : View) :
    Reads ((eitherOrBoth (wholePattern grouping) fractionPattern .joining).parser rules) view
      fun text value => Literal grouping text ∧ value = .str (String.ofList text) := by
  refine alt_reads (seq_reads (wholePattern_reads view) (fun _ _ _ _ => fractionPattern_reads _) ?_)
    (alt_reads ((wholePattern_reads view).mono ?_) ((fractionPattern_reads view).mono ?_))
  · rintro text value text' value' ⟨hwhole, rfl⟩ ⟨⟨digits, hdigits, rfl⟩, rfl⟩
    exact ⟨_, Value.add_str _ _, rfl, .mixed hwhole hdigits, by rw [← String.ofList_append]⟩
  · exact fun text value h => ⟨.whole h.1, h.2⟩
  · rintro text value ⟨⟨digits, hdigits, rfl⟩, rfl⟩
    exact ⟨.fraction hdigits, rfl⟩

theorem numeral_reads (view : View) :
    Reads ((numeral grouping).parser rules) view fun text value =>
      Literal grouping text ∧ ∃ x, literalValue? text = some x ∧ value = .number x := by
  rw [numeral_eq]
  have hvalue : Reads ((mapValue (eitherOrBoth (wholePattern grouping) fractionPattern .joining)
      numberValue).parser rules) view fun text value =>
        Literal grouping text ∧ ∃ x, literalValue? text = some x ∧ value = .number x := by
    apply mapValue_reads (literal_reads view)
    rintro text value ⟨hliteral, rfl⟩
    obtain ⟨x, hx⟩ := hliteral.exists_value
    exact ⟨.number x, numberValue_of_literal hx, rfl, hliteral, x, hx, rfl⟩
  exact reword_reads hvalue

end Abacus.Grammar
