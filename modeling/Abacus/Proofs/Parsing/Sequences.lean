import Abacus.Proofs.Parsing.Rows
import Mathlib.Data.List.Forall2

namespace Abacus

-- The member at an index, or the last one where the index points at none.
def atOrLast {α : Type} (entries : List α) (index : Int) : Option α :=
  if 0 ≤ index ∧ index < entries.length then entries[index.toNat]? else entries.getLast?

section AtOrLast

variable {α : Type} (entry : α) {entries : List α} {index : Int}

theorem atOrLast_singleton (index : Int) : atOrLast [entry] index = some entry := by
  unfold atOrLast
  split
  · rename_i hinside
    have hzero : index = 0 := by
      simp only [List.length_singleton] at hinside
      omega
    subst hzero
    rfl
  · rfl

theorem atOrLast_cons_zero (entries : List α) : atOrLast (entry :: entries) 0 = some entry := by
  have hinside : (0 : Int) ≤ 0 ∧ (0 : Int) < (entry :: entries).length := by simp
  rw [atOrLast, if_pos hinside]
  rfl

theorem atOrLast_cons (hindex : index ≠ 0) (hne : entries ≠ []) :
    atOrLast (entry :: entries) index = atOrLast entries (index - 1) := by
  unfold atOrLast
  by_cases hinside : 0 ≤ index ∧ index < (entry :: entries).length
  · have hinside' : 0 ≤ index - 1 ∧ index - 1 < entries.length := by
      simp only [List.length_cons] at hinside
      omega
    have hsucc : index.toNat = (index - 1).toNat + 1 := by omega
    rw [if_pos hinside, if_pos hinside', hsucc, List.getElem?_cons_succ]
  · have houtside : ¬(0 ≤ index - 1 ∧ index - 1 < entries.length) := by
      simp only [List.length_cons] at hinside
      omega
    obtain ⟨next, rest, rfl⟩ := List.exists_cons_of_ne_nil hne
    rw [if_neg hinside, if_neg houtside, List.getLast?_cons_cons]

end AtOrLast

-- Any two payloads make one.
def Combiner.Total (combine : Combiner) : Prop :=
  combine.Extends (fun value => value.isAbsent = false) fun value => value.isAbsent = false

namespace Match

-- Both fail or both succeed, and all but the payload is the same.
structure SameButValue (left right : Match) : Prop where
  failed : left.failed = right.failed
  rest : left.rest = right.rest
  start : left.start = right.start
  complaint : left.complaint = right.complaint
  errorAt : left.errorAt = right.errorAt

theorem SameButValue.refl (result : Match) : result.SameButValue result := ⟨rfl, rfl, rfl, rfl, rfl⟩

theorem SameButValue.symm {left right : Match} (h : left.SameButValue right) :
    right.SameButValue left :=
  ⟨h.failed.symm, h.rest.symm, h.start.symm, h.complaint.symm, h.errorAt.symm⟩

theorem SameButValue.trans {left between right : Match} (h : left.SameButValue between)
    (h' : between.SameButValue right) : left.SameButValue right :=
  ⟨h.failed.trans h'.failed, h.rest.trans h'.rest, h.start.trans h'.start,
    h.complaint.trans h'.complaint, h.errorAt.trans h'.errorAt⟩

-- The payload of a failure is the absent one.
theorem SameButValue.eq_of_failed {left right : Match} (h : left.SameButValue right)
    (hf : left.failed = true) : left = right := by
  have hf' : right.failed = true := h.failed ▸ hf
  have hvalue : left.value = right.value :=
    ((failed_iff left).mp hf).trans ((failed_iff right).mp hf').symm
  cases left
  cases right
  rw [mk.injEq]
  exact ⟨hvalue, h.rest, h.start, h.complaint, h.errorAt⟩

theorem SameButValue.rebase {left right : Match} (h : left.SameButValue right) (view : View) :
    left.rebase view = right.rebase view := by
  rw [Match.rebase, Match.rebase, h.complaint, h.errorAt]

-- A failure that reports the input it is seen from.
theorem rebase_eq_self {result : Match} {view : View} (hf : result.failed = true)
    (hrest : result.rest = view) (hstart : result.start = view.pos) :
    result.rebase view = result := by
  have hsame : (result.rebase view).SameButValue result :=
    ⟨hf.symm, hrest.symm, hstart.symm, rfl, rfl⟩
  exact hsame.eq_of_failed rfl

end Match

namespace Parser

variable {p p' q q' : Parser} {parsers : List Parser} {answer : View → Match}
  {answers : List (View → Match)} {combine combine' : Combiner} {view : View} {index : Int}

-- The parsers of a row that are run: on which view each of them is, and what it comes to.
def runsInRow : List (View → Match) → View → List (View × Match)
  | [], _ => []
  | answer :: answers, view =>
      (view, answer view) ::
        if (answer view).failed then [] else runsInRow answers (answer view).rest

def viewsInRow (answers : List (View → Match)) (view : View) : List View :=
  (runsInRow answers view).map Prod.fst

def matchesInRow (answers : List (View → Match)) (view : View) : List Match :=
  (runsInRow answers view).map Prod.snd

theorem viewsInRow_of_failed (hf : (answer view).failed = true) :
    viewsInRow (answer :: answers) view = [view] := by
  simp [viewsInRow, runsInRow, hf]

theorem viewsInRow_of_ok (hok : (answer view).failed = false) :
    viewsInRow (answer :: answers) view = view :: viewsInRow answers (answer view).rest := by
  simp [viewsInRow, runsInRow, hok]

theorem matchesInRow_of_failed (hf : (answer view).failed = true) :
    matchesInRow (answer :: answers) view = [answer view] := by
  simp [matchesInRow, runsInRow, hf]

theorem matchesInRow_of_ok (hok : (answer view).failed = false) :
    matchesInRow (answer :: answers) view =
      answer view :: matchesInRow answers (answer view).rest := by
  simp [matchesInRow, runsInRow, hok]

-- A row whose combiners may differ from step to step. Both kinds of sequence are of this kind.
def inRow (combineAt : Int → Combiner) : List Parser → Int → Parser
  | [], _ => never .emptySequence
  | [p], _ => p
  | p :: ps, index => seq p (inRow combineAt ps (index - 1)) (combineAt index)

theorem inRow_cons {combineAt : Int → Combiner} (p : Parser) (index : Int) (hne : parsers ≠ []) :
    inRow combineAt (p :: parsers) index =
      seq p (inRow combineAt parsers (index - 1)) (combineAt index) := by
  obtain ⟨q, qs, rfl⟩ := List.exists_cons_of_ne_nil hne
  rfl

theorem sequence_cons (combine : Combiner) (p : Parser) (hne : parsers ≠ []) :
    sequence combine (p :: parsers) = seq p (sequence combine parsers) combine := by
  obtain ⟨q, qs, rfl⟩ := List.exists_cons_of_ne_nil hne
  rfl

-- The first payload is kept where the index has come down to zero.
def keepingAt (index : Int) : Combiner := if index = 0 then .first else .second

theorem sequenceKeeping_cons (p : Parser) (index : Int) (hne : parsers ≠ []) :
    sequenceKeeping (p :: parsers) index =
      seq p (sequenceKeeping parsers (index - 1)) (keepingAt index) := by
  obtain ⟨q, qs, rfl⟩ := List.exists_cons_of_ne_nil hne
  rfl

theorem sequence_eq_inRow (combine : Combiner) (parsers : List Parser) (index : Int) :
    sequence combine parsers = inRow (fun _ => combine) parsers index := by
  induction parsers generalizing index with
  | nil => rfl
  | cons p ps ih =>
    by_cases hne : ps = []
    · subst hne
      rfl
    · rw [sequence_cons combine p hne, inRow_cons p index hne, ih (index - 1)]

theorem sequenceKeeping_eq_inRow (parsers : List Parser) (index : Int) :
    sequenceKeeping parsers index = inRow keepingAt parsers index := by
  induction parsers generalizing index with
  | nil => rfl
  | cons p ps ih =>
    by_cases hne : ps = []
    · subst hne
      rfl
    · rw [sequenceKeeping_cons p index hne, inRow_cons p index hne, ih (index - 1)]

-- Two successes in a row, and a payload for both.
theorem seq_eq_pure {first second : Match} {value : Value} (hp : p view = pure first)
    (hok : first.failed = false) (hq : q first.rest = pure second) (hok' : second.failed = false)
    (hvalue : combine first.value second.value = .ok value) (hpresent : value.isAbsent = false) :
    seq p q combine view =
      pure { value := value, rest := second.rest, start := first.start } := by
  rw [seq_eq_merge hp hok hq hok', Match.merge_eq_ok hvalue hpresent, ParseM.lift_ok]

-- Both parsers come to a match, and it is the same but for the payload.
def SameButValue (p q : Parser) : Prop :=
  ∀ view, ∃ left right, p view = pure left ∧ q view = pure right ∧ left.SameButValue right

theorem Answers.sameButValue (h : p.Answers answer) : p.SameButValue p := fun view =>
  ⟨answer view, answer view, h view, h view, .refl _⟩

theorem SameButValue.seq (hp : p.SameButValue p') (hq : q.SameButValue q')
    (hcombine : combine.Total) (hcombine' : combine'.Total) :
    (seq p q combine).SameButValue (seq p' q' combine') := by
  intro view
  obtain ⟨first, first', hfirst, hfirst', hsame⟩ := hp view
  obtain ⟨second, second', hsecond, hsecond', hsame'⟩ := hq first.rest
  rw [hsame.rest] at hsecond'
  by_cases hf : first.failed = true
  · have hf' : first'.failed = true := hsame.failed ▸ hf
    refine ⟨_, _, seq_eq_rebase hfirst hf, seq_eq_rebase hfirst' hf', ?_⟩
    rw [hsame.rebase]
    exact .refl _
  · have hok : first.failed = false := Bool.not_eq_true _ ▸ hf
    have hok' : first'.failed = false := hsame.failed ▸ hok
    by_cases hf2 : second.failed = true
    · have hf2' : second'.failed = true := hsame'.failed ▸ hf2
      refine ⟨_, _, seq_eq_rebase_right hfirst hok hsecond hf2,
        seq_eq_rebase_right hfirst' hok' hsecond' hf2', ?_⟩
      rw [hsame'.rebase]
      exact .refl _
    · have hok2 : second.failed = false := Bool.not_eq_true _ ▸ hf2
      have hok2' : second'.failed = false := hsame'.failed ▸ hok2
      obtain ⟨value, hvalue, hpresent, -⟩ := hcombine first.value second.value hok hok2
      obtain ⟨value', hvalue', hpresent', -⟩ := hcombine' first'.value second'.value hok' hok2'
      refine ⟨_, _, seq_eq_pure hfirst hok hsecond hok2 hvalue hpresent,
        seq_eq_pure hfirst' hok' hsecond' hok2' hvalue' hpresent', ?_⟩
      exact ⟨hpresent.trans hpresent'.symm, hsame'.rest, hsame.start, rfl, rfl⟩

theorem inRow_sameButValue {combineAt combineAt' : Int → Combiner}
    (h : List.Forall₂ Answers parsers answers) (hne : parsers ≠ [])
    (hcombine : ∀ index, (combineAt index).Total) (hcombine' : ∀ index, (combineAt' index).Total)
    (index : Int) :
    (inRow combineAt parsers index).SameButValue (inRow combineAt' parsers index) := by
  induction h generalizing index with
  | nil => exact absurd rfl hne
  | @cons p answer ps answers hp h ih =>
    by_cases hnil : ps = []
    · subst hnil
      exact hp.sameButValue
    · rw [inRow_cons p index hnil, inRow_cons p index hnil]
      exact hp.sameButValue.seq (ih hnil (index - 1)) (hcombine index) (hcombine' index)

theorem total_of_mem (h : combine ∈ [Combiner.pairing, .first, .second]) : combine.Total :=
  present_extends combine h

theorem keepingAt_total (index : Int) : (keepingAt index).Total := by
  unfold keepingAt
  split
  · exact total_of_mem (by simp)
  · exact total_of_mem (by simp)

-- Where a row of parsers ends that keeps one payload: behind the last of them, with the payload at
-- the index, or at the first failure. A parser alone has its failure as it is, and any other
-- failure is seen from the input of the row.
structure EndsRow (answers : List (View → Match)) (index : Int) (view : View) (result : Match) :
    Prop where
  succeeds : result.failed = false →
    (∀ inner ∈ matchesInRow answers view, inner.failed = false) ∧
      (matchesInRow answers view).length = answers.length ∧
      ∃ kept, atOrLast (matchesInRow answers view) index = some kept ∧ result.value = kept.value
  fails : result.failed = true → ∃ front failing, matchesInRow answers view = front ++ [failing] ∧
    (∀ inner ∈ front, inner.failed = false) ∧ failing.failed = true ∧
    result = if answers.length = 1 then failing else failing.rebase view

theorem endsRow_alone (answer : View → Match) (index : Int) (view : View) :
    EndsRow [answer] index view (answer view) := by
  have hmatches : matchesInRow [answer] view = [answer view] := by
    simp [matchesInRow, runsInRow]
  constructor
  · intro hok
    rw [hmatches]
    exact ⟨by simpa using hok, rfl, _, atOrLast_singleton _ index, rfl⟩
  · intro hf
    exact ⟨[], _, hmatches, by simp, hf, rfl⟩

theorem endsRow_of_failed (hf : (answer view).failed = true) (hne : answers ≠ []) (index : Int) :
    EndsRow (answer :: answers) index view ((answer view).rebase view) where
  succeeds hok := by cases hok
  fails _ := by
    have hlength : (answer :: answers).length ≠ 1 := by simpa using hne
    exact ⟨[], _, matchesInRow_of_failed hf, by simp, hf, by rw [if_neg hlength]⟩

theorem EndsRow.rebase {second : Match} (h : EndsRow answers (index - 1) (answer view).rest second)
    (hok : (answer view).failed = false) (hf : second.failed = true) (hne : answers ≠ []) :
    EndsRow (answer :: answers) index view (second.rebase view) where
  succeeds hok := by cases hok
  fails _ := by
    obtain ⟨front, failing, hmatches, hfront, hfailing, hsecond⟩ := h.fails hf
    have hlength : (answer :: answers).length ≠ 1 := by simpa using hne
    refine ⟨answer view :: front, failing, ?_, ?_, hfailing, ?_⟩
    · rw [matchesInRow_of_ok hok, hmatches, List.cons_append]
    · exact List.forall_mem_cons.mpr ⟨hok, hfront⟩
    · rw [if_neg hlength, hsecond]
      split <;> rfl

-- The payload in front is kept at zero, and one behind it elsewhere.
theorem EndsRow.merge {second : Match} {value : Value}
    (h : EndsRow answers (index - 1) (answer view).rest second) (hok : (answer view).failed = false)
    (hok' : second.failed = false)
    (hvalue : keepingAt index (answer view).value second.value = .ok value)
    (hpresent : value.isAbsent = false) :
    EndsRow (answer :: answers) index view
      { value := value, rest := second.rest, start := (answer view).start } := by
  obtain ⟨hall, hlength, kept, hkept, hsecond⟩ := h.succeeds hok'
  have hmatches : matchesInRow (answer :: answers) view = _ := matchesInRow_of_ok hok
  constructor
  · intro _
    rw [hmatches]
    refine ⟨List.forall_mem_cons.mpr ⟨hok, hall⟩, by simp [hlength], ?_⟩
    by_cases hindex : index = 0
    · subst hindex
      cases hvalue
      exact ⟨answer view, atOrLast_cons_zero _ _, rfl⟩
    · have hnonempty : matchesInRow answers (answer view).rest ≠ [] := by
        intro hnil
        rw [hnil] at hkept
        simp [atOrLast] at hkept
      rw [keepingAt, if_neg hindex] at hvalue
      cases hvalue
      exact ⟨kept, by rw [atOrLast_cons _ hindex hnonempty, hkept], hsecond⟩
  · intro hf
    change value.isAbsent = true at hf
    rw [hpresent] at hf
    cases hf

theorem sequenceKeeping_endsRow (h : List.Forall₂ Answers parsers answers) (hne : parsers ≠ [])
    (index : Int) (view : View) :
    ∃ result, sequenceKeeping parsers index view = pure result ∧
      EndsRow answers index view result := by
  induction h generalizing index view with
  | nil => exact absurd rfl hne
  | @cons p answer ps answers hp h ih =>
    by_cases hnil : ps = []
    · subst hnil
      cases h
      exact ⟨answer view, hp view, endsRow_alone answer index view⟩
    · have hnil' : answers ≠ [] := by
        rintro rfl
        exact hnil (List.forall₂_nil_right_iff.mp h)
      rw [sequenceKeeping_cons p index hnil]
      by_cases hf : (answer view).failed = true
      · exact ⟨_, seq_eq_rebase (hp view) hf, endsRow_of_failed hf hnil' index⟩
      · have hok : (answer view).failed = false := Bool.not_eq_true _ ▸ hf
        obtain ⟨second, hsecond, hends⟩ := ih hnil (index - 1) (answer view).rest
        by_cases hf' : second.failed = true
        · exact ⟨_, seq_eq_rebase_right (hp view) hok hsecond hf', hends.rebase hok hf' hnil'⟩
        · have hok' : second.failed = false := Bool.not_eq_true _ ▸ hf'
          obtain ⟨value, hvalue, hpresent, -⟩ := keepingAt_total index _ _ hok hok'
          exact ⟨_, seq_eq_pure (hp view) hok hsecond hok' hvalue hpresent,
            hends.merge hok hok' hvalue hpresent⟩

-- The watched parser does as the plain one does, but that it notes attempts first.
def NotesFirst (watched plain : Parser) (noted : View → List Attempt) : Prop :=
  ∀ view state, (watched view).run state = (plain view).run (state.noting (noted view))

theorem Answers.notesFirst (h : p.Answers answer) (label : String) :
    NotesFirst (Parser.watch label p) p fun view => [.on label view] := by
  intro view state
  rw [h.watch label view state, h view]
  rfl

theorem NotesFirst.seq {noted : View → List Attempt} (hp : p.Answers answer) (label : String)
    (hq : NotesFirst q' q noted) (combine : Combiner) :
    NotesFirst (seq (watch label p) q' combine) (seq p q combine) fun view =>
      (if (answer view).failed then [] else noted (answer view).rest) ++ [.on label view] := by
  intro view state
  rw [Parser.seq, (hp.watch label).run_bind, Parser.seq, hp view, pure_bind]
  by_cases hf : (answer view).failed = true
  · simp only [hf, if_true, List.nil_append]
  · simp only [hf, Bool.false_eq_true, if_false]
    rw [StateT.run_bind, hq, StateT.run_bind, ParseState.noting_noting]

-- What is noted in a row, the latest first.
def notedInRow (labels : List String) (answers : List (View → Match)) (view : View) :
    List Attempt :=
  (List.zipWith Attempt.on labels (viewsInRow answers view)).reverse

theorem notedInRow_cons (label : String) (labels : List String) (answer : View → Match)
    (answers : List (View → Match)) :
    notedInRow (label :: labels) (answer :: answers) = fun view =>
      (if (answer view).failed then [] else notedInRow labels answers (answer view).rest) ++
        [.on label view] := by
  funext view
  by_cases hf : (answer view).failed = true
  · simp [notedInRow, viewsInRow_of_failed hf, hf]
  · have hok : (answer view).failed = false := Bool.not_eq_true _ ▸ hf
    simp [notedInRow, viewsInRow_of_ok hok, hok]

theorem inRow_notesFirst (combineAt : Int → Combiner) {labels : List String}
    (h : List.Forall₂ Answers parsers answers) (hlabels : labels.length = parsers.length)
    (index : Int) :
    NotesFirst (inRow combineAt (List.zipWith watch labels parsers) index)
      (inRow combineAt parsers index) (notedInRow labels answers) := by
  induction h generalizing labels index with
  | nil =>
    obtain rfl := List.eq_nil_of_length_eq_zero hlabels
    intro view state
    rfl
  | @cons p answer ps answers hp h ih =>
    cases labels with
    | nil => cases hlabels
    | cons label labels =>
      have hlength : labels.length = ps.length := by simpa using hlabels
      rw [List.zipWith_cons_cons]
      by_cases hnil : ps = []
      · subst hnil
        cases h
        obtain rfl := List.eq_nil_of_length_eq_zero hlength
        have hnoted : notedInRow [label] [answer] = fun view => [.on label view] := by
          funext view
          rfl
        rw [hnoted]
        exact hp.notesFirst label
      · have hnil' : List.zipWith watch labels ps ≠ [] := by
          rw [← List.length_pos_iff, List.length_zipWith, hlength, Nat.min_self]
          exact List.length_pos_iff.mpr hnil
        rw [inRow_cons _ _ hnil', inRow_cons _ _ hnil, notedInRow_cons]
        exact NotesFirst.seq hp label (ih hlength (index - 1)) _

-- A sequence that keeps one payload is the plain sequence but for the payload, which is the one at
-- the index, or the last one. Both run the parsers in order, each once, up to the first failure, and
-- have its complaint. They see it from their input, but for a parser alone, whose failure is its own.
theorem keeping_is_a_projection (h : List.Forall₂ Answers parsers answers) (hne : parsers ≠ [])
    (index : Int) (view : View) :
    ∃ chained kept, sequence .pairing parsers view = pure chained ∧
      sequenceKeeping parsers index view = pure kept ∧ chained.SameButValue kept ∧
      (kept.failed = false → (∀ inner ∈ matchesInRow answers view, inner.failed = false) ∧
        (matchesInRow answers view).length = parsers.length ∧
        ∃ chosen, atOrLast (matchesInRow answers view) index = some chosen ∧
          kept.value = chosen.value) ∧
      (kept.failed = true → chained = kept ∧
        ∃ front failing, matchesInRow answers view = front ++ [failing] ∧
          (∀ inner ∈ front, inner.failed = false) ∧ failing.failed = true ∧
          kept.complaint = failing.complaint ∧ kept.errorAt = failing.errorAt ∧
          kept = (if parsers.length = 1 then failing else failing.rebase view) ∧
          (failing.rest = view → failing.start = view.pos → kept = failing.rebase view)) ∧
      ∀ labels state, labels.length = parsers.length →
        (sequence .pairing (List.zipWith watch labels parsers) view).run state =
            .ok (chained, state.noting (notedInRow labels answers view)) ∧
          (sequenceKeeping (List.zipWith watch labels parsers) index view).run state =
            .ok (kept, state.noting (notedInRow labels answers view)) := by
  have hlength : parsers.length = answers.length := h.length_eq
  obtain ⟨chained, kept, hchained, hkept, hsame⟩ := inRow_sameButValue h hne
    (fun _ => total_of_mem (by simp : Combiner.pairing ∈ _)) keepingAt_total index view
  rw [← sequence_eq_inRow] at hchained
  rw [← sequenceKeeping_eq_inRow] at hkept
  obtain ⟨result, hresult, hends⟩ := sequenceKeeping_endsRow h hne index view
  obtain rfl : kept = result := ParseM.pure_inj (hkept.symm.trans hresult)
  refine ⟨chained, kept, hchained, hkept, hsame, ?_, ?_, ?_⟩
  · rw [hlength]
    exact hends.succeeds
  · intro hf
    refine ⟨hsame.eq_of_failed (hsame.failed ▸ hf), ?_⟩
    obtain ⟨front, failing, hmatches, hfront, hfailing, heq⟩ := hends.fails hf
    refine ⟨front, failing, hmatches, hfront, hfailing, ?_, ?_, hlength ▸ heq, ?_⟩
    · rw [heq]
      split <;> rfl
    · rw [heq]
      split <;> rfl
    · intro hrest hstart
      rw [heq, Match.rebase_eq_self hfailing hrest hstart, ite_self]
  · intro labels state hlabels
    constructor
    · rw [sequence_eq_inRow _ _ index, inRow_notesFirst _ h hlabels, ← sequence_eq_inRow, hchained]
      rfl
    · rw [sequenceKeeping_eq_inRow, inRow_notesFirst _ h hlabels, ← sequenceKeeping_eq_inRow, hkept]
      rfl

-- Of a sign between brackets the sign is kept, and each parser is run where the one before ended.
theorem keeping_is_a_projection_between_brackets :
    let sign : Char → Parser := fun sign => satisfy (· == sign) "a sign"
    let row := [sign '(', sign 'x', sign ')']
    ∃ chained kept, sequence .pairing row (.ofText "(x)y" "") = pure chained ∧
      sequenceKeeping row 1 (.ofText "(x)y" "") = pure kept ∧ chained.SameButValue kept ∧
      kept.failed = false ∧ kept.value = .str "x" ∧
      (sequenceKeeping (List.zipWith watch ["open", "sign", "close"] row) 1
        (.ofText "(x)y" "")).run {} =
          .ok (kept, { attempts := [⟨"close", 2, 4⟩, ⟨"sign", 1, 4⟩, ⟨"open", 0, 4⟩] }) := by
  intro sign row
  have hsign : ∀ c, (sign c).Answers (characterMatch (· == c) "a sign") := fun c =>
    satisfy_answers (· == c) "a sign"
  obtain ⟨chained, kept, hchained, hkept, hsame, hsucceeds, hfails, hlog⟩ :=
    keeping_is_a_projection (.cons (hsign '(') (.cons (hsign 'x') (.cons (hsign ')') .nil)))
      (by simp) 1 (.ofText "(x)y" "")
  have hok : kept.failed = false := by
    by_contra hf
    obtain ⟨-, front, failing, hmatches, -, hfailing, -⟩ := hfails (by simpa using hf)
    have hall : ∀ inner ∈ front ++ [failing], inner.failed = false := by
      rw [← hmatches]
      decide
    rw [hall failing (by simp)] at hfailing
    cases hfailing
  obtain ⟨-, -, chosen, hchosen, hvalue⟩ := hsucceeds hok
  refine ⟨chained, kept, hchained, hkept, hsame, hok, ?_, (hlog _ {} rfl).2⟩
  cases hchosen
  exact hvalue

-- A parser alone may fail with less left than its input, and the sequence leaves it at that.
theorem lone_failure_is_not_rebased :
    let refusing : Parser := mapMatch (satisfy (fun _ => true) "a character") fun result =>
      .ok (.failure result.rest (.note "converted"))
    ∃ answer failure, List.Forall₂ Answers [refusing] [answer] ∧
      matchesInRow [answer] (.ofText "ab" "") = [failure] ∧ failure.failed = true ∧
      sequence .pairing [refusing] (.ofText "ab" "") = pure failure ∧
      sequenceKeeping [refusing] 0 (.ofText "ab" "") = pure failure ∧
      failure.rest.pos = 1 ∧ (failure.rebase (.ofText "ab" "")).rest.pos = 0 := by
  intro refusing
  let answer : View → Match := fun view =>
    let result := characterMatch (fun _ => true) "a character" view
    if result.failed then result else .failure result.rest (.note "converted")
  have hanswer : refusing.Answers answer := by
    intro view
    simp only [refusing, mapMatch, satisfy_answers _ _ view, pure_bind, answer]
    split <;> rfl
  refine ⟨answer, answer (.ofText "ab" ""), .cons hanswer .nil, ?_, ?_, hanswer _, hanswer _, ?_,
    rfl⟩
  · rfl
  · decide
  · decide

end Parser

end Abacus
