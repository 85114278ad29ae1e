import Abacus.Proofs.Parsing.Sequences

namespace Abacus

-- Payloads of a kind are combined to one of the kind, and from either end to the same.
structure Combiner.Associates (combine : Combiner) (whole : Value → Prop) : Prop where
  closed : combine.Extends whole whole
  regroups : ∀ {left middle right front back}, whole left → whole middle → whole right →
    combine left middle = .ok front → combine middle right = .ok back →
      combine front right = combine left back

namespace Parser

variable {p q q' r : Parser} {ps qs : List Parser} {answers answers' : List (View → Match)}
  {combine combine' : Combiner} {view : View} {whole : Value → Prop}

theorem first_associates : Combiner.first.Associates fun value => value.isAbsent = false where
  closed := total_of_mem (by simp)
  regroups _ _ _ hfront _ := by
    cases hfront
    rfl

theorem second_associates : Combiner.second.Associates fun value => value.isAbsent = false where
  closed := total_of_mem (by simp)
  regroups _ _ _ _ hback := by
    cases hback
    rfl

theorem joining_associates :
    Combiner.joining.Associates fun value => ∃ text, value = .str text where
  closed := joining_extends
  regroups := by
    rintro _ _ _ _ _ ⟨left, rfl⟩ ⟨middle, rfl⟩ ⟨right, rfl⟩ hfront hback
    cases hfront
    cases hback
    change Value.add (.str (left ++ middle)) (.str right) = Value.add (.str left) (.str _)
    rw [Value.add_str, Value.add_str, String.append_assoc]

-- Run in a row on the view, the parsers come to matches, and the successes among them to payloads
-- of the kind.
def Delivers (whole : Value → Prop) : List Parser → View → Prop
  | [], _ => True
  | p :: ps, view => ∃ result, p view = pure result ∧
      (result.failed = false → whole result.value ∧ Delivers whole ps result.rest)

theorem delivers_of_matchesInRow (h : List.Forall₂ Answers ps answers)
    (hwhole : ∀ inner ∈ matchesInRow answers view, inner.failed = false → whole inner.value) :
    Delivers whole ps view := by
  induction h generalizing view with
  | nil => trivial
  | @cons p answer ps answers hp h ih =>
    refine ⟨answer view, hp view, fun hok => ?_⟩
    rw [matchesInRow_of_ok hok] at hwhole
    obtain ⟨hhead, htail⟩ := List.forall_mem_cons.mp hwhole
    exact ⟨hhead hok, ih htail⟩

theorem Delivers.tail (h : Delivers whole (p :: ps) view)
    (htail : ∀ {rest}, Delivers whole ps rest → Delivers whole qs rest) :
    Delivers whole (p :: qs) view := by
  obtain ⟨result, hp, hresult⟩ := h
  exact ⟨result, hp, fun hok => ⟨(hresult hok).1, htail (hresult hok).2⟩⟩

-- Two parsers in the row may be made one.
theorem Delivers.seq (h : Delivers whole (p :: q :: ps) view)
    (hcombine : combine.Extends whole whole) : Delivers whole (seq p q combine :: ps) view := by
  obtain ⟨first, hp, hfirst⟩ := h
  by_cases hf : first.failed = true
  · exact ⟨_, seq_eq_rebase hp hf, fun hok => by cases hok⟩
  · have hok : first.failed = false := Bool.not_eq_true _ ▸ hf
    obtain ⟨hleft, second, hq, hsecond⟩ := hfirst hok
    by_cases hf' : second.failed = true
    · exact ⟨_, seq_eq_rebase_right hp hok hq hf', fun hok => by cases hok⟩
    · have hok' : second.failed = false := Bool.not_eq_true _ ▸ hf'
      obtain ⟨hright, hrest⟩ := hsecond hok'
      obtain ⟨value, hvalue, hpresent, hwhole⟩ := hcombine _ _ hleft hright
      exact ⟨_, seq_eq_pure hp hok hq hok' hvalue hpresent, fun _ => ⟨hwhole, hrest⟩⟩

-- And so may any number of them.
theorem Delivers.sequence (h : Delivers whole (ps ++ qs) view) (hne : ps ≠ [])
    (hcombine : combine.Extends whole whole) : Delivers whole (sequence combine ps :: qs) view := by
  induction ps generalizing view with
  | nil => exact absurd rfl hne
  | cons p ps ih =>
    by_cases hnil : ps = []
    · subst hnil
      exact h
    · rw [sequence_cons combine p hnil]
      exact Delivers.seq (Delivers.tail h fun hrest => ih hrest hnil) hcombine

-- What the second parser does on other views has no say.
theorem seq_congr_right {first : Match} (hp : p view = pure first)
    (h : first.failed = false → q first.rest = q' first.rest) :
    Parser.seq p q combine view = Parser.seq p q' combine view := by
  by_cases hf : first.failed = true
  · rw [seq_eq_rebase hp hf, seq_eq_rebase hp hf]
  · have hok : first.failed = false := Bool.not_eq_true _ ▸ hf
    simp only [Parser.seq, hp, pure_bind, hok, h hok]

theorem seq_assoc (h : Delivers whole [p, q, r] view) (hcombine : combine.Associates whole) :
    seq (seq p q combine) r combine view = seq p (seq q r combine) combine view := by
  obtain ⟨first, hp, hfirst⟩ := h
  by_cases hf : first.failed = true
  · rw [seq_eq_rebase (seq_eq_rebase hp hf) rfl, seq_eq_rebase hp hf]
    rfl
  · have hok : first.failed = false := Bool.not_eq_true _ ▸ hf
    obtain ⟨hleft, second, hq, hsecond⟩ := hfirst hok
    by_cases hf' : second.failed = true
    · rw [seq_eq_rebase (seq_eq_rebase_right hp hok hq hf') rfl,
        seq_eq_rebase_right hp hok (seq_eq_rebase hq hf') rfl]
      rfl
    · have hok' : second.failed = false := Bool.not_eq_true _ ▸ hf'
      obtain ⟨hmiddle, third, hr, hthird⟩ := hsecond hok'
      obtain ⟨front, hfront, hpresent, -⟩ := hcombine.closed _ _ hleft hmiddle
      have hpq : seq p q combine view = _ := seq_eq_pure hp hok hq hok' hfront hpresent
      by_cases hf'' : third.failed = true
      · rw [seq_eq_rebase_right hpq hpresent hr hf'',
          seq_eq_rebase_right hp hok (seq_eq_rebase_right hq hok' hr hf'') rfl]
        rfl
      · have hok'' : third.failed = false := Bool.not_eq_true _ ▸ hf''
        obtain ⟨hright, -⟩ := hthird hok''
        obtain ⟨back, hback, hpresent', hback'⟩ := hcombine.closed _ _ hmiddle hright
        obtain ⟨value, hvalue, hpresent'', -⟩ := hcombine.closed _ _ hleft hback'
        have hqr : seq q r combine first.rest = _ := seq_eq_pure hq hok' hr hok'' hback hpresent'
        have hvalue' : combine front third.value = .ok value :=
          (hcombine.regroups hleft hmiddle hright hfront hback).trans hvalue
        rw [seq_eq_pure hpq hpresent hr hok'' hvalue' hpresent'',
          seq_eq_pure hp hok hqr hpresent' hvalue hpresent'']

theorem sequence_append (h : Delivers whole (ps ++ qs) view) (hps : ps ≠ []) (hqs : qs ≠ [])
    (hcombine : combine.Associates whole) :
    sequence combine (ps ++ qs) view =
      seq (sequence combine ps) (sequence combine qs) combine view := by
  induction ps generalizing view with
  | nil => exact absurd rfl hps
  | cons p ps ih =>
    have happend : ps ++ qs ≠ [] := List.append_ne_nil_of_right_ne_nil ps hqs
    rw [List.cons_append, sequence_cons combine p happend]
    by_cases hnil : ps = []
    · subst hnil
      rfl
    · have hrow : Delivers whole [p, sequence combine ps, sequence combine qs] view := by
        refine Delivers.tail h fun hrest => ?_
        refine (Delivers.sequence hrest hnil hcombine.closed).tail fun hrest' => ?_
        rw [← List.append_nil qs] at hrest'
        exact hrest'.sequence hqs hcombine.closed
      obtain ⟨first, hp, hfirst⟩ := h
      rw [seq_congr_right hp fun hok => ih (hfirst hok).2 hnil, ← seq_assoc hrow hcombine,
        sequence_cons combine p hnil]

theorem alt_assoc (p q r : Parser) : alt (alt p q) r = alt p (alt q r) := by
  funext view
  simp only [alt, bind_assoc]
  congr 1
  funext first
  by_cases hf : first.failed = true
  · simp [hf]
  · simp [hf]

theorem firstOf_cons (p : Parser) (hne : ps ≠ []) : firstOf (p :: ps) = alt p (firstOf ps) := by
  obtain ⟨q, qs, rfl⟩ := List.exists_cons_of_ne_nil hne
  rfl

-- This holds of any parsers, those with effects included.
theorem firstOf_append (hps : ps ≠ []) (hqs : qs ≠ []) :
    firstOf (ps ++ qs) = alt (firstOf ps) (firstOf qs) := by
  induction ps with
  | nil => exact absurd rfl hps
  | cons p ps ih =>
    have happend : ps ++ qs ≠ [] := List.append_ne_nil_of_right_ne_nil ps hqs
    rw [List.cons_append, firstOf_cons p happend]
    by_cases hnil : ps = []
    · subst hnil
      rfl
    · rw [ih hnil, firstOf_cons p hnil, alt_assoc]

theorem Answers.alt {answer answer' : View → Match} (hp : p.Answers answer)
    (hq : q.Answers answer') :
    (alt p q).Answers fun view => if (answer view).failed then answer' view else answer view := by
  intro view
  by_cases hf : (answer view).failed = true
  · simp only [alt_eq_right (hp view) hf, hq view, hf, if_true]
  · have hok : (answer view).failed = false := Bool.not_eq_true _ ▸ hf
    simp only [alt_eq_left (hp view) hok, hf, Bool.false_eq_true, if_false]

theorem firstOf_answers (h : List.Forall₂ Answers ps answers) (hne : ps ≠ []) :
    ∃ answer, (firstOf ps).Answers answer := by
  induction h with
  | nil => exact absurd rfl hne
  | @cons p answer ps answers hp _ ih =>
    by_cases hnil : ps = []
    · subst hnil
      exact ⟨answer, hp⟩
    · obtain ⟨answer', hanswer'⟩ := ih hnil
      rw [firstOf_cons p hnil]
      exact ⟨_, hp.alt hanswer'⟩

-- Which of the total combiners it is makes a difference to the payload alone.
theorem sequence_sameButValue (h : List.Forall₂ Answers ps answers) (hne : ps ≠ [])
    (hcombine : combine.Total) (hcombine' : combine'.Total) :
    (sequence combine ps).SameButValue (sequence combine' ps) := by
  rw [sequence_eq_inRow combine ps 0, sequence_eq_inRow combine' ps 0]
  exact inRow_sameButValue h hne (fun _ => hcombine) (fun _ => hcombine') 0

theorem exists_regrouped (hps : List.Forall₂ Answers ps answers)
    (hqs : List.Forall₂ Answers qs answers') (hne : ps ≠ []) (hne' : qs ≠ [])
    (hcombine : combine.Associates whole)
    (hwhole : ∀ inner ∈ matchesInRow (answers ++ answers') view, inner.failed = false →
      whole inner.value) :
    ∃ result, sequence combine (ps ++ qs) view = pure result ∧
      seq (sequence combine ps) (sequence combine qs) combine view = pure result := by
  have hrow : Delivers whole (ps ++ qs) view :=
    delivers_of_matchesInRow (List.rel_append hps hqs) hwhole
  have hsame := sequence_append hrow hne hne' hcombine
  have happend : ps ++ qs ≠ [] := List.append_ne_nil_of_left_ne_nil hne qs
  rw [← List.append_nil (ps ++ qs)] at hrow
  obtain ⟨result, hresult, -⟩ := hrow.sequence happend hcombine.closed
  exact ⟨result, hresult, hsame ▸ hresult⟩

-- Parsers in two lists may be run as one sequence, or each list as a sequence of its own, and that
-- comes to the same match where the first or the last payload is kept, and where texts are joined.
-- Where pairs are made, they are nested in another way, and the rest is the same. A choice may be
-- regrouped in any way.
theorem sequences_and_choices_regroup (hps : List.Forall₂ Answers ps answers)
    (hqs : List.Forall₂ Answers qs answers') (hne : ps ≠ []) (hne' : qs ≠ []) (view : View) :
    (∀ combine ∈ [Combiner.first, .second], ∃ result,
      sequence combine (ps ++ qs) view = pure result ∧
        seq (sequence combine ps) (sequence combine qs) combine view = pure result) ∧
      ((∀ inner ∈ matchesInRow (answers ++ answers') view, inner.failed = false →
          ∃ text, inner.value = .str text) →
        ∃ result, sequence .joining (ps ++ qs) view = pure result ∧
          seq (sequence .joining ps) (sequence .joining qs) .joining view = pure result) ∧
      (∃ chained grouped, sequence .pairing (ps ++ qs) view = pure chained ∧
        seq (sequence .pairing ps) (sequence .pairing qs) .pairing view = pure grouped ∧
        chained.SameButValue grouped ∧ (chained.failed = true → chained = grouped)) ∧
      ∃ result, firstOf (ps ++ qs) view = pure result ∧
        alt (firstOf ps) (firstOf qs) view = pure result := by
  have hrow : List.Forall₂ Answers (ps ++ qs) (answers ++ answers') := List.rel_append hps hqs
  have happend : ps ++ qs ≠ [] := List.append_ne_nil_of_left_ne_nil hne qs
  have hpresent : ∀ inner ∈ matchesInRow (answers ++ answers') view, inner.failed = false →
      inner.value.isAbsent = false := fun _ _ hok => hok
  refine ⟨?_, exists_regrouped hps hqs hne hne' joining_associates, ?_, ?_⟩
  · intro combine hcombine
    simp only [List.mem_cons, List.not_mem_nil, or_false] at hcombine
    rcases hcombine with rfl | rfl
    · exact exists_regrouped hps hqs hne hne' first_associates hpresent
    · exact exists_regrouped hps hqs hne hne' second_associates hpresent
  · have hpairing : Combiner.pairing.Total := total_of_mem (by simp)
    have hfirst : Combiner.first.Total := total_of_mem (by simp)
    obtain ⟨result, hresult, hgrouped⟩ :=
      exists_regrouped hps hqs hne hne' first_associates hpresent
    obtain ⟨chained, result', hchained, hresult', hsame⟩ :=
      sequence_sameButValue hrow happend hpairing hfirst view
    obtain ⟨grouped, result'', hgroup, hgrouped', hsame'⟩ :=
      ((sequence_sameButValue hps hne hpairing hfirst).seq
        (sequence_sameButValue hqs hne' hpairing hfirst) hpairing hfirst) view
    obtain rfl : result = result' := ParseM.pure_inj (hresult.symm.trans hresult')
    obtain rfl : result = result'' := ParseM.pure_inj (hgrouped.symm.trans hgrouped')
    have hboth := hsame.trans hsame'.symm
    exact ⟨chained, grouped, hchained, hgroup, hboth, hboth.eq_of_failed⟩
  · obtain ⟨answer, hanswer⟩ := firstOf_answers hrow happend
    exact ⟨answer view, hanswer view, firstOf_append hne hne' ▸ hanswer view⟩

-- Three signs are one text, with two of them in the first sequence or one.
theorem sequences_and_choices_regroup_over_three_signs :
    let sign : Char → Parser := fun sign => satisfy (· == sign) "a sign"
    ∃ result, sequence .joining [sign 'a', sign 'b', sign 'c'] (.ofText "abcd" "") = pure result ∧
      seq (sequence .joining [sign 'a', sign 'b']) (sequence .joining [sign 'c']) .joining
        (.ofText "abcd" "") = pure result ∧
      result.value = .str "abc" := by
  intro sign
  have hsign : ∀ c, (sign c).Answers (characterMatch (· == c) "a sign") := fun c =>
    satisfy_answers (· == c) "a sign"
  obtain ⟨-, hjoining, -, -⟩ := sequences_and_choices_regroup
    (.cons (hsign 'a') (.cons (hsign 'b') .nil)) (.cons (hsign 'c') .nil) (by simp) (by simp)
    (.ofText "abcd" "")
  have hmatches : matchesInRow [characterMatch (· == 'a') "a sign",
      characterMatch (· == 'b') "a sign", characterMatch (· == 'c') "a sign"] (.ofText "abcd" "") =
        [.taken (.ofText "abcd" "") 1 (.str "a"), .taken (.drop (.ofText "abcd" "") 1) 1 (.str "b"),
          .taken (.drop (.ofText "abcd" "") 2) 1 (.str "c")] := rfl
  obtain ⟨result, hresult, hgrouped⟩ := hjoining (by
    intro inner hinner _
    rw [List.cons_append, List.cons_append, List.nil_append, hmatches] at hinner
    simp only [List.mem_cons, List.not_mem_nil, or_false] at hinner
    rcases hinner with rfl | rfl | rfl <;> exact ⟨_, rfl⟩)
  obtain ⟨joined, hjoined, htext⟩ : ∃ joined : Match, sequence .joining [sign 'a', sign 'b',
      sign 'c'] (.ofText "abcd" "") = pure joined ∧ joined.value = .str "abc" := ⟨_, rfl, rfl⟩
  obtain rfl : result = joined := ParseM.pure_inj (hresult.symm.trans hjoined)
  exact ⟨result, hresult, hgrouped, htext⟩

end Parser

end Abacus
