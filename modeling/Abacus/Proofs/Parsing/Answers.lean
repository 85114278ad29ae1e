import Abacus.Proofs.Parsing.Discipline
import Abacus.Proofs.Parsing.Returns

namespace Abacus

-- The attempt on a view, as the log has it.
def Attempt.on (label : String) (view : View) : Attempt := ⟨label, view.pos, view.stop⟩

-- The state with more attempts in its log, the latest of them first.
def ParseState.noting (state : ParseState) (attempts : List Attempt) : ParseState :=
  { state with attempts := attempts ++ state.attempts }

theorem ParseState.noting_noting (state : ParseState) (attempts attempts' : List Attempt) :
    (state.noting attempts).noting attempts' = state.noting (attempts' ++ attempts) := by
  simp only [noting, List.append_assoc]

theorem Match.disciplined_taken (view : View) (count : Nat) {value : Value}
    (h : value.isAbsent = false) : Match.Disciplined view (.taken view count value) where
  begins := rfl
  leaves _ := .drop view count
  fails hf := by
    change value.isAbsent = true at hf
    rw [h] at hf
    cases hf

-- A part and a whole make a whole.
def Combiner.Extends (combine : Combiner) (part whole : Value → Prop) : Prop :=
  ∀ left right, part left → whole right →
    ∃ value, combine left right = .ok value ∧ value.isAbsent = false ∧ whole value

theorem Match.merge_eq_ok {combine : Combiner} {first second : Match} {value : Value}
    (h : combine first.value second.value = .ok value) (hpresent : value.isAbsent = false) :
    first.merge combine second =
      .ok { value := value, rest := second.rest, start := first.start } := by
  simp only [merge, h, bind, Except.bind]
  exact success_eq_ok hpresent _ _

namespace Parser

variable {p q : Parser} {answer : View → Match} {combine : Combiner} {view : View}
  {first second : Match}

def Answers (p : Parser) (answer : View → Match) : Prop := ∀ view, p view = pure (answer view)

-- Besides, the log grows by attempts that hang on the view alone.
def Notes (p : Parser) (answer : View → Match) (noted : View → List Attempt) : Prop :=
  ∀ view state, (p view).run state = .ok (answer view, state.noting (noted view))

theorem Notes.run_bind {α : Type} {noted : View → List Attempt} (h : p.Notes answer noted)
    (f : Match → ParseM α) (state : ParseState) :
    (p view >>= f).run state = (f (answer view)).run (state.noting (noted view)) := by
  rw [StateT.run_bind, h view state]
  rfl

theorem Answers.notes (h : p.Answers answer) : p.Notes answer fun _ => [] := by
  intro view state
  rw [h view]
  rfl

theorem Answers.watch (h : p.Answers answer) (label : String) :
    (watch label p).Notes answer fun view => [.on label view] := by
  intro view state
  change (p view).run (state.noting [.on label view]) = _
  rw [h view]
  rfl

theorem Answers.disciplined (h : p.Answers answer) (hp : p.IsDisciplined) (view : View) :
    (answer view).Disciplined view :=
  (hp view {} (answer view) {} (ParseState.disciplined_of_empty rfl) (by rw [h view]; rfl)).1

-- What comes of a view that should begin with a suitable character.
def characterMatch (suits : Char → Bool) (expected : String) (view : View) : Match :=
  match view.chars with
  | [] => .failure view .endOfInput
  | c :: _ =>
      if suits c then .taken view 1 (.str (String.singleton c))
      else .failure view (.unsuitable c expected)

theorem satisfy_answers (suits : Char → Bool) (expected : String) :
    (satisfy suits expected).Answers (characterMatch suits expected) := by
  intro view
  unfold satisfy characterMatch
  rw [View.next?_eq]
  cases view.chars with
  | nil => rfl
  | cons c rest =>
    simp only [List.head?_cons, Option.map_some]
    split <;> rfl

-- Why a text does not begin with a suitable character.
def lacking (expected : String) : List Char → Complaint
  | [] => .endOfInput
  | c :: _ => .unsuitable c expected

theorem characterMatch_eq_failure {suits : Char → Bool} {expected : String}
    (h : ∀ c ∈ view.chars.head?, suits c = false) :
    characterMatch suits expected view = .failure view (lacking expected view.chars) := by
  unfold characterMatch
  cases hchars : view.chars with
  | nil => rfl
  | cons c rest =>
    have hc : suits c = false := h c (by rw [hchars]; rfl)
    simp [hc, lacking]

theorem seq_eq_rebase (hp : p view = pure first) (hf : first.failed = true) :
    seq p q combine view = pure (first.rebase view) := by
  simp [seq, hp, hf]

theorem seq_eq_rebase_right (hp : p view = pure first) (hok : first.failed = false)
    (hq : q first.rest = pure second) (hf : second.failed = true) :
    seq p q combine view = pure (second.rebase view) := by
  simp [seq, hp, hok, hq, hf]

theorem seq_eq_merge (hp : p view = pure first) (hok : first.failed = false)
    (hq : q first.rest = pure second) (hok' : second.failed = false) :
    seq p q combine view = liftM (first.merge combine second) := by
  simp [seq, hp, hok, hq, hok']

theorem alt_eq_left (hp : p view = pure first) (hok : first.failed = false) :
    alt p q view = pure first := by
  simp [alt, hp, hok]

theorem alt_eq_right (hp : p view = pure first) (hf : first.failed = true) :
    alt p q view = q view := by
  simp [alt, hp, hf]

theorem complete_eq_self (hp : p view = pure first) (hf : first.failed = true) :
    complete p view = pure first := by
  simp [complete, hp, hf]

theorem mapValue_eq_self {change : Value → Except Fault Value} (hp : p view = pure first)
    (hf : first.failed = true) : mapValue p change view = pure first := by
  simp [mapValue, mapMatch, hp, hf]

theorem reword_eq {change : Complaint → Complaint} (hp : p view = pure first)
    (hf : first.failed = true) :
    reword p change view = pure { first with complaint := change first.complaint } := by
  simp [reword, hp, hf]

end Parser

end Abacus
