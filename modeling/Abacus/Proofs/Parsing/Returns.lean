import Abacus.Proofs.Parsing.Effects

namespace Abacus

-- The success that takes the first characters of a view.
def Match.taken (view : View) (count : Nat) (value : Value) : Match where
  value := value
  rest := view.drop count
  start := view.pos

namespace Parser

variable {p q : Parser} {view : View} {count count' : Nat} {value value' result : Value}
  {combine : Combiner}

-- The parser takes the first `count` characters for `value`, and leaves the state as it is.
def Takes (p : Parser) (view : View) (count : Nat) (value : Value) : Prop :=
  value.isAbsent = false ∧ p view = pure (Match.taken view count value)

def Fails (p : Parser) (view : View) : Prop :=
  ∃ result : Match, result.failed = true ∧ p view = pure result

theorem Takes.failed_eq (h : p.Takes view count value) :
    (Match.taken view count value).failed = false := h.1

theorem merge_taken (view view' : View) (count count' : Nat)
    (h : combine value value' = .ok result) (hresult : result.isAbsent = false) :
    (Match.taken view count value).merge combine (Match.taken view' count' value') =
      .ok { value := result, rest := view'.drop count', start := view.pos } := by
  simp only [Match.merge, Match.taken, h, bind, Except.bind]
  exact Match.success_eq_ok hresult _ _

theorem always_takes (h : value.isAbsent = false) : (always value).Takes view 0 value := by
  refine ⟨h, ?_⟩
  simp only [always, Match.success_eq_ok h, Match.taken, View.drop_zero]
  rfl

theorem never_fails (complaint : Complaint) : (never complaint).Fails view := ⟨_, rfl, rfl⟩

theorem satisfy_takes {suits : Char → Bool} {expected : String} {c : Char} {rest : List Char}
    (hchars : view.chars = c :: rest) (hc : suits c = true) :
    (satisfy suits expected).Takes view 1 (.str (String.singleton c)) := by
  refine ⟨rfl, ?_⟩
  simp only [satisfy, View.next?_eq, hchars, List.head?_cons, Option.map_some, hc, if_true]
  rfl

theorem satisfy_fails {suits : Char → Bool} {expected : String}
    (h : ∀ c ∈ view.chars.head?, suits c = false) : (satisfy suits expected).Fails view := by
  cases hhead : view.chars.head? with
  | none =>
    refine ⟨.failure view .endOfInput, rfl, ?_⟩
    simp [satisfy, View.next?_eq, hhead]
  | some c =>
    refine ⟨.failure view (.unsuitable c expected), rfl, ?_⟩
    simp [satisfy, View.next?_eq, hhead, h c (by simp [hhead])]

theorem notAhead_takes (h : p.Fails view) : (notAhead p).Takes view 0 (.str "") := by
  obtain ⟨inner, hf, hp⟩ := h
  refine ⟨rfl, ?_⟩
  simp only [notAhead, hp, pure_bind, hf, if_true, Match.taken, View.drop_zero]
  rfl

theorem notAhead_fails (h : p.Takes view count value) : (notAhead p).Fails view := by
  let text := (view.take ((view.drop count).pos - view.pos)).text
  refine ⟨.failure view (.unexpected text), rfl, ?_⟩
  simp only [notAhead, h.2, pure_bind, h.failed_eq]
  rfl

theorem seq_takes (hp : p.Takes view count value) (hq : q.Takes (view.drop count) count' value')
    (h : combine value value' = .ok result) (hresult : result.isAbsent = false) :
    (seq p q combine).Takes view (count + count') result := by
  refine ⟨hresult, ?_⟩
  have hrest : (Match.taken view count value).rest = view.drop count := rfl
  simp only [seq, hp.2, pure_bind, hp.failed_eq, Bool.false_eq_true, if_false, hrest, hq.2,
    hq.failed_eq, merge_taken view _ count count' h hresult, View.drop_drop]
  rfl

-- Of two parsers in a row, the payload of the first, or of the second, may be the one that counts.
theorem seq_first_takes (hp : p.Takes view count value)
    (hq : q.Takes (view.drop count) count' value') :
    (seq p q .first).Takes view (count + count') value := seq_takes hp hq rfl hp.1

theorem seq_second_takes (hp : p.Takes view count value)
    (hq : q.Takes (view.drop count) count' value') :
    (seq p q .second).Takes view (count + count') value' := seq_takes hp hq rfl hq.1

theorem seq_fails_left (hp : p.Fails view) : (seq p q combine).Fails view := by
  obtain ⟨inner, hf, hp⟩ := hp
  refine ⟨inner.rebase view, rfl, ?_⟩
  simp [seq, hp, hf]

theorem seq_fails_right (hp : p.Takes view count value) (hq : q.Fails (view.drop count)) :
    (seq p q combine).Fails view := by
  obtain ⟨inner, hf, hq⟩ := hq
  have hrest : (Match.taken view count value).rest = view.drop count := rfl
  refine ⟨inner.rebase view, rfl, ?_⟩
  simp [seq, hp.2, hp.failed_eq, hrest, hq, hf]

-- Of two parsers on one input, the second one says how much is taken.
theorem both_second_takes (hp : p.Takes view count value) (hq : q.Takes view count' value') :
    (both p q .second).Takes view count' value' := by
  refine ⟨hq.1, ?_⟩
  have hmerge : (Match.taken view count value).merge .second (Match.taken view count' value') =
      .ok (.taken view count' value') := merge_taken view view count count' rfl hq.1
  simp only [both, hp.2, pure_bind, hp.failed_eq, Bool.false_eq_true, if_false, hq.2,
    hq.failed_eq, hmerge]
  rfl

theorem both_fails_left (hp : p.Fails view) : (both p q combine).Fails view := by
  obtain ⟨inner, hf, hp⟩ := hp
  refine ⟨inner.rebase view, rfl, ?_⟩
  simp [both, hp, hf]

theorem both_fails_right (hp : p.Takes view count value) (hq : q.Fails view) :
    (both p q combine).Fails view := by
  obtain ⟨inner, hf, hq⟩ := hq
  refine ⟨inner.rebase view, rfl, ?_⟩
  simp [both, hp.2, hp.failed_eq, hq, hf]

theorem alt_takes_left (hp : p.Takes view count value) : (alt p q).Takes view count value := by
  refine ⟨hp.1, ?_⟩
  simp [alt, hp.2, hp.failed_eq]

theorem alt_takes_right (hp : p.Fails view) (hq : q.Takes view count value) :
    (alt p q).Takes view count value := by
  obtain ⟨inner, hf, hp⟩ := hp
  refine ⟨hq.1, ?_⟩
  simp [alt, hp, hf, hq.2]

theorem alt_fails (hp : p.Fails view) (hq : q.Fails view) : (alt p q).Fails view := by
  obtain ⟨inner, hf, hp⟩ := hp
  obtain ⟨last, hf', hq⟩ := hq
  refine ⟨last, hf', ?_⟩
  simp [alt, hp, hf, hq]

theorem complete_takes (hp : p.Takes view view.size value) :
    (complete p).Takes view view.size value := by
  refine ⟨hp.1, ?_⟩
  have hempty : (Match.taken view view.size value).rest.isEmpty = true := by
    rw [View.isEmpty_iff, Match.taken, View.size_drop, Nat.sub_self]
  simp [complete, hp.2, hempty]

theorem complete_fails_of_fails (hp : p.Fails view) : (complete p).Fails view := by
  obtain ⟨inner, hf, hp⟩ := hp
  refine ⟨inner, hf, ?_⟩
  simp [complete, hp, hf]

-- What is left over is named, and where it begins.
theorem complete_eq_unconsumed (hp : p.Takes view count value) (hcount : count < view.size) :
    complete p view =
      pure (.failureAt view (.unconsumed (view.drop count).text) (view.drop count).pos) := by
  have hnotEmpty : (Match.taken view count value).rest.isEmpty = false := by
    rw [Bool.eq_false_iff, Ne, View.isEmpty_iff, Match.taken, View.size_drop]
    omega
  simp only [complete, hp.2, pure_bind, hp.failed_eq, hnotEmpty]
  rfl

theorem complete_fails (hp : p.Takes view count value) (hcount : count < view.size) :
    (complete p).Fails view := ⟨_, rfl, complete_eq_unconsumed hp hcount⟩

theorem mapValue_takes {change : Value → Except Fault Value} (hp : p.Takes view count value)
    (h : change value = .ok result) (hresult : result.isAbsent = false) :
    (mapValue p change).Takes view count result := by
  refine ⟨hresult, ?_⟩
  have hchange : (do
      let changed ← change (Match.taken view count value).value
      Match.success changed (Match.taken view count value).start
        (Match.taken view count value).rest) = .ok (Match.taken view count result) := by
    have hvalue : (Match.taken view count value).value = value := rfl
    simp only [hvalue, h, bind, Except.bind, Match.success_eq_ok hresult]
    rfl
  simp only [mapValue, mapMatch, hp.2, pure_bind, hp.failed_eq, Bool.false_eq_true, if_false,
    hchange]
  rfl

theorem mapValue_fails {change : Value → Except Fault Value} (hp : p.Fails view) :
    (mapValue p change).Fails view := by
  obtain ⟨inner, hf, hp⟩ := hp
  refine ⟨inner, hf, ?_⟩
  simp [mapValue, mapMatch, hp, hf]

theorem reword_takes {change : Complaint → Complaint} (hp : p.Takes view count value) :
    (reword p change).Takes view count value := by
  refine ⟨hp.1, ?_⟩
  simp [reword, hp.2, hp.failed_eq]

theorem reword_fails {change : Complaint → Complaint} (hp : p.Fails view) :
    (reword p change).Fails view := by
  obtain ⟨inner, hf, hp⟩ := hp
  refine ⟨{ inner with complaint := change inner.complaint }, hf, ?_⟩
  simp [reword, hp, hf]

theorem optionally_takes_none (hp : p.Fails view) : (optionally p).Takes view 0 (.str "") :=
  alt_takes_right hp (always_takes rfl)

theorem optionally_takes (hp : p.Takes view count value) : (optionally p).Takes view count value :=
  alt_takes_left hp

end Parser

end Abacus
