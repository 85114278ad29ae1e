import Abacus.Pattern.Text
import Abacus.Proofs.Parsing.Answers
import Mathlib.Data.Nat.Find
import Mathlib.Tactic.ByContra

namespace Abacus

-- A success that takes all in front of `rest`, for what the payloads are combined to.
structure Match.Folds (view rest : View) (combined : Except Fault Value) (result : Match) : Prop where
  ok : result.failed = false
  start : result.start = view.pos
  rest : result.rest = rest
  combined : combined = .ok result.value

namespace Parser

variable {p q : Parser} {answer body stop : View → Match} {combine : Combiner} {view rest : View}
  {first second : Match} {values : List Value} {last : Value} {part whole : Value → Prop}
  {rounds count : Nat}

-- What is left behind so many matches in a row.
def leftAfter (answer : View → Match) (view : View) : Nat → View
  | 0 => view
  | count + 1 => (answer (leftAfter answer view count)).rest

def payloads (answer : View → Match) (view : View) (count : Nat) : List Value :=
  (List.range count).map fun index => (answer (leftAfter answer view index)).value

theorem leftAfter_succ (answer : View → Match) (view : View) (count : Nat) :
    leftAfter answer view (count + 1) = leftAfter answer (answer view).rest count := by
  induction count with
  | zero => rfl
  | succ count ih => rw [leftAfter, ih, ← leftAfter]

theorem payloads_succ (answer : View → Match) (view : View) (count : Nat) :
    payloads answer view (count + 1) =
      (answer view).value :: payloads answer (answer view).rest count := by
  simp only [payloads, List.range_succ_eq_map, List.map_cons, List.map_map, leftAfter,
    Function.comp_def, ← leftAfter_succ]

-- The discipline is kept, and every success takes something.
structure Progresses (answer : View → Match) : Prop where
  disciplined : ∀ view, (answer view).Disciplined view
  takes : ∀ view, (answer view).failed = false → view.pos < (answer view).rest.pos

theorem Progresses.size_lt (h : Progresses answer) (hok : (answer view).failed = false) :
    (answer view).rest.size < view.size := by
  have hstop := ((h.disciplined view).leaves hok).2.1
  have := h.takes view hok
  have := (answer view).rest.ordered
  simp only [View.size]
  omega

-- There are not more matches in a row than characters.
theorem count_le_size (h : Progresses answer)
    (hsuccess : ∀ index < count, (answer (leftAfter answer view index)).failed = false) :
    count ≤ view.size := by
  suffices hsize : (leftAfter answer view count).size + count ≤ view.size by omega
  induction count with
  | zero => exact Nat.le_refl _
  | succ count ih =>
    have hrest := ih fun index hindex => hsuccess index (by omega)
    have hlt := h.size_lt (hsuccess count (Nat.lt_succ_self count))
    change (leftAfter answer view (count + 1)).size < _ at hlt
    omega

-- Whatever holds where a row fails holds somewhere in the row for the first time.
theorem exists_first_end (h : Progresses answer) (ends : View → Prop)
    (hends : ∀ view, (answer view).failed = true → ends view) (view : View) :
    ∃ count, ends (leftAfter answer view count) ∧
      ∀ index < count, ¬ends (leftAfter answer view index) := by
  induction hsize : view.size using Nat.strongRecOn generalizing view with
  | _ size ih =>
    by_cases hend : ends view
    · exact ⟨0, hend, fun _ hlt => absurd hlt (Nat.not_lt_zero _)⟩
    · have hok : (answer view).failed = false :=
        Bool.eq_false_iff.mpr fun hf => hend (hends view hf)
      have hlt := h.size_lt hok
      obtain ⟨count, hlast, hfirst⟩ := ih _ (hsize ▸ hlt) (answer view).rest rfl
      refine ⟨count + 1, ?_, fun index hindex => ?_⟩
      · rwa [leftAfter_succ]
      · cases index with
        | zero => exact hend
        | succ index =>
          rw [leftAfter_succ]
          exact hfirst index (by omega)

-- One more match in front of a row.
theorem seq_folds (hp : p view = pure first) (hok : first.failed = false)
    (hstart : first.start = view.pos) (hq : q first.rest = pure second)
    (hsecond : second.Folds first.rest rest (values.foldrM combine last))
    (htotal : combine.Extends part whole) (hpart : part first.value) (hwhole : whole second.value) :
    ∃ result, seq p q combine view = pure result ∧
      result.Folds view rest ((first.value :: values).foldrM combine last) ∧
      whole result.value := by
  obtain ⟨value, hvalue, hpresent, hwhole'⟩ := htotal _ _ hpart hwhole
  have hmerge : seq p q combine view = _ := seq_eq_merge hp hok hq hsecond.ok
  rw [Match.merge_eq_ok hvalue hpresent, ParseM.lift_ok] at hmerge
  refine ⟨_, hmerge, ⟨hpresent, hstart, hsecond.rest, ?_⟩, hwhole'⟩
  rw [List.foldrM_cons, hsecond.combined]
  exact hvalue

-- A repetition ends with the last success before the first failure.
theorem repeatWithin_folds (hp : p.Answers answer)
    (hdisciplined : ∀ view, (answer view).Disciplined view)
    (htotal : combine.Extends whole whole)
    (hwhole : ∀ view, (answer view).failed = false → whole (answer view).value)
    (hsuccess : ∀ index ≤ count, (answer (leftAfter answer view index)).failed = false)
    (hfailure : (answer (leftAfter answer view (count + 1))).failed = true)
    (hrounds : count + 1 < rounds) :
    ∃ result, repeatWithin p combine rounds view = pure result ∧
      result.Folds view (leftAfter answer view (count + 1))
        ((payloads answer view count).foldrM combine
          (answer (leftAfter answer view count)).value) ∧
      whole result.value := by
  induction count generalizing view rounds with
  | zero =>
    have hok := hsuccess 0 (Nat.le_refl _)
    obtain ⟨rounds, rfl⟩ : ∃ n, rounds = n + 2 := ⟨rounds - 2, by omega⟩
    -- The last success comes from the second alternative, as nothing can be read behind it.
    have hnext : repeatWithin p combine (rounds + 1) (answer view).rest =
        pure (answer (answer view).rest) := by
      have hseq : seq p (repeatWithin p combine rounds) combine (answer view).rest = _ :=
        seq_eq_rebase (hp (answer view).rest) hfailure
      exact (alt_eq_right hseq rfl).trans (hp _)
    have hseq : seq p (repeatWithin p combine (rounds + 1)) combine view = _ :=
      seq_eq_rebase_right (hp view) hok hnext hfailure
    refine ⟨answer view, (alt_eq_right hseq rfl).trans (hp view), ?_, hwhole view hok⟩
    exact ⟨hok, (hdisciplined view).begins, rfl, rfl⟩
  | succ count ih =>
    have hok := hsuccess 0 (Nat.zero_le _)
    obtain ⟨rounds, rfl⟩ : ∃ n, rounds = n + 1 := ⟨rounds - 1, by omega⟩
    simp only [leftAfter_succ answer view, payloads_succ] at hfailure ⊢
    have hfurther : ∀ index ≤ count,
        (answer (leftAfter answer (answer view).rest index)).failed = false := by
      intro index hindex
      rw [← leftAfter_succ]
      exact hsuccess (index + 1) (by omega)
    have hrounds' : count + 1 < rounds := by omega
    obtain ⟨second, hsecond, hfolds, hwhole'⟩ := ih hfurther hfailure hrounds'
    obtain ⟨result, hresult, hrow, hwhole''⟩ := seq_folds (hp view) hok (hdisciplined view).begins
      hsecond hfolds htotal (hwhole view hok) hwhole'
    exact ⟨result, alt_eq_left hresult hrow.ok, hrow, hwhole''⟩

-- The body is found, and the stop is not, at the first places of a row.
def GoesOn (body stop : View → Match) (view : View) (count : Nat) : Prop :=
  ∀ index < count, (stop (leftAfter body view index)).failed = true ∧
    (body (leftAfter body view index)).failed = false

structure StopsAt (body stop : View → Match) (view : View) (count : Nat) : Prop where
  goesOn : GoesOn body stop view count
  found : (stop (leftAfter body view count)).failed = false

structure StuckAt (body stop : View → Match) (view : View) (count : Nat) : Prop where
  goesOn : GoesOn body stop view count
  noStop : (stop (leftAfter body view count)).failed = true
  noBody : (body (leftAfter body view count)).failed = true

theorem GoesOn.tail (h : GoesOn body stop view (count + 1)) :
    GoesOn body stop (body view).rest count := by
  intro index hindex
  rw [← leftAfter_succ]
  exact h (index + 1) (by omega)

theorem repeatUntilWithin_folds (hp : p.Answers body) (hq : q.Answers stop)
    (hbody : ∀ view, (body view).Disciplined view) (hstop : ∀ view, (stop view).Disciplined view)
    (htotal : combine.Extends part whole)
    (hpart : ∀ view, (body view).failed = false → part (body view).value)
    (hwhole : ∀ view, (stop view).failed = false → whole (stop view).value)
    (h : StopsAt body stop view count) (hrounds : count < rounds) :
    ∃ result, repeatUntilWithin p q combine rounds view = pure result ∧
      result.Folds view (stop (leftAfter body view count)).rest
        ((payloads body view count).foldrM combine (stop (leftAfter body view count)).value) ∧
      whole result.value := by
  obtain ⟨hgoesOn, hfound⟩ := h
  obtain ⟨rounds, rfl⟩ : ∃ n, rounds = n + 1 := ⟨rounds - 1, by omega⟩
  induction count generalizing view rounds with
  | zero =>
    exact ⟨stop view, alt_eq_left (hq view) hfound, ⟨hfound, (hstop view).begins, rfl, rfl⟩,
      hwhole view hfound⟩
  | succ count ih =>
    obtain ⟨hnoStop, hok⟩ := hgoesOn 0 (Nat.succ_pos _)
    obtain ⟨rounds, rfl⟩ : ∃ n, rounds = n + 1 := ⟨rounds - 1, by omega⟩
    simp only [leftAfter_succ body view, payloads_succ] at hfound ⊢
    obtain ⟨second, hsecond, hfolds, hwhole'⟩ := ih hgoesOn.tail hfound rounds (by omega)
    obtain ⟨result, hresult, hrow, hwhole''⟩ := seq_folds (hp view) hok (hbody view).begins hsecond
      hfolds htotal (hpart view hok) hwhole'
    exact ⟨result, (alt_eq_right (hq view) hnoStop).trans hresult, hrow, hwhole''⟩

-- A repetition that does not come to its stop fails as the body does where it gets stuck.
theorem repeatUntilWithin_stuck (hp : p.Answers body) (hq : q.Answers stop)
    (h : StuckAt body stop view count) (hrounds : count < rounds) :
    repeatUntilWithin p q combine rounds view =
      pure ((body (leftAfter body view count)).rebase view) := by
  obtain ⟨hgoesOn, hnoStop, hnoBody⟩ := h
  obtain ⟨rounds, rfl⟩ : ∃ n, rounds = n + 1 := ⟨rounds - 1, by omega⟩
  induction count generalizing view rounds with
  | zero => exact (alt_eq_right (hq view) hnoStop).trans (seq_eq_rebase (hp view) hnoBody)
  | succ count ih =>
    obtain ⟨hnoStop', hok⟩ := hgoesOn 0 (Nat.succ_pos _)
    obtain ⟨rounds, rfl⟩ : ∃ n, rounds = n + 1 := ⟨rounds - 1, by omega⟩
    simp only [leftAfter_succ body view] at hnoStop hnoBody ⊢
    have hsecond := ih hgoesOn.tail hnoStop hnoBody rounds (by omega)
    have hseq : seq p (repeatUntilWithin p q combine (rounds + 1)) combine view = _ :=
      seq_eq_rebase_right (hp view) hok hsecond rfl
    exact (alt_eq_right (hq view) hnoStop').trans hseq

-- Every row comes to its stop, or gets stuck.
theorem exists_stopsAt_or_stuckAt (h : Progresses body) (stop : View → Match) (view : View) :
    ∃ count, StopsAt body stop view count ∨ StuckAt body stop view count := by
  obtain ⟨count, hend, hbefore⟩ := exists_first_end h
    (fun view => (stop view).failed = false ∨ (body view).failed = true) (fun _ => .inr) view
  have hgoesOn : GoesOn body stop view count := by
    intro index hindex
    obtain ⟨hnoStop, hok⟩ := not_or.mp (hbefore index hindex)
    exact ⟨Bool.not_eq_false _ ▸ hnoStop, Bool.not_eq_true _ ▸ hok⟩
  refine ⟨count, ?_⟩
  cases hfound : (stop (leftAfter body view count)).failed with
  | false => exact .inl ⟨hgoesOn, hfound⟩
  | true =>
    have hnot : ¬(stop (leftAfter body view count)).failed = false := by simp [hfound]
    exact .inr ⟨hgoesOn, hfound, hend.resolve_left hnot⟩

theorem foldrM_pairing (values : List Value) (last : Value) :
    values.foldrM Combiner.pairing last = .ok (values.foldr .pair last) := by
  induction values with
  | nil => rfl
  | cons value values ih =>
    rw [List.foldrM_cons, ih]
    rfl

theorem foldrM_first (values : List Value) (last : Value) :
    values.foldrM Combiner.first last = .ok (values.headD last) := by
  induction values with
  | nil => rfl
  | cons value values ih =>
    rw [List.foldrM_cons, ih]
    rfl

theorem foldrM_second (values : List Value) (last : Value) :
    values.foldrM Combiner.second last = .ok last := by
  induction values with
  | nil => rfl
  | cons value values ih =>
    rw [List.foldrM_cons, ih]
    rfl

theorem foldrM_joining (texts : List String) (last : String) :
    (texts.map Value.str).foldrM Combiner.joining (.str last) =
      .ok (.str (texts.foldr (· ++ ·) last)) := by
  induction texts with
  | nil => rfl
  | cons text texts ih =>
    rw [List.map_cons, List.foldrM_cons, ih]
    rfl

-- What comes of the payloads of a row: nested pairs, one text, the first of them, or the last.
structure OfRow (combine : Combiner) (values : List Value) (last result : Value) : Prop where
  pairing : combine = .pairing → result = values.foldr .pair last
  joining : combine = .joining → ∀ (texts : List String) (text : String),
    values = texts.map .str → last = .str text → result = .str (texts.foldr (· ++ ·) text)
  first : combine = .first → result = values.headD last
  second : combine = .second → result = last

theorem ofRow_of_foldrM {result : Value} (h : values.foldrM combine last = .ok result) :
    OfRow combine values last result where
  pairing hcombine := by
    rw [hcombine, foldrM_pairing] at h
    exact (Except.ok.inj h).symm
  joining hcombine texts text hvalues hlast := by
    rw [hcombine, hvalues, hlast, foldrM_joining] at h
    exact (Except.ok.inj h).symm
  first hcombine := by
    rw [hcombine, foldrM_first] at h
    exact (Except.ok.inj h).symm
  second hcombine := by
    rw [hcombine, foldrM_second] at h
    exact (Except.ok.inj h).symm

-- A row of at least one match is taken as a whole, and so it is where it may be empty.
theorem many1_folds (hp : p.Answers answer) (hanswer : Progresses answer)
    (htotal : combine.Extends whole whole)
    (hwhole : ∀ view, (answer view).failed = false → whole (answer view).value)
    (hsuccess : ∀ index < count + 1, (answer (leftAfter answer view index)).failed = false)
    (hfailure : (answer (leftAfter answer view (count + 1))).failed = true) :
    ∃ result, many1 p combine view = pure result ∧ many p combine view = pure result ∧
      result.Folds view (leftAfter answer view (count + 1))
        ((payloads answer view count).foldrM combine
          (answer (leftAfter answer view count)).value) := by
  obtain ⟨result, hresult, hfolds, -⟩ := repeatWithin_folds hp hanswer.disciplined htotal hwhole
    (fun index hindex => hsuccess index (by omega)) hfailure
    (Nat.lt_succ_of_le (count_le_size hanswer hsuccess))
  exact ⟨result, hresult, alt_eq_left hresult hfolds.ok, hfolds⟩

theorem many1_of_failed (hp : p.Answers answer) (hf : (answer view).failed = true) :
    many1 p combine view = pure (answer view) ∧
      many p combine view = pure (.taken view 0 (.str "")) := by
  have hseq : seq p (repeatWithin p combine view.size) combine view = _ := seq_eq_rebase (hp view) hf
  have hmany1 : many1 p combine view = pure (answer view) := (alt_eq_right hseq rfl).trans (hp view)
  exact ⟨hmany1, (alt_eq_right hmany1 hf).trans (always_takes rfl).2⟩

-- A repetition that may be empty never fails.
theorem many_succeeds (hp : p.Answers answer) (hanswer : Progresses answer)
    (htotal : combine.Extends whole whole)
    (hwhole : ∀ view, (answer view).failed = false → whole (answer view).value) (view : View) :
    ∃ result, many p combine view = pure result ∧ result.failed = false := by
  obtain ⟨count, hfailure, hsuccess⟩ :=
    exists_first_end hanswer (fun view => (answer view).failed = true) (fun _ h => h) view
  cases count with
  | zero => exact ⟨_, (many1_of_failed hp hfailure).2, rfl⟩
  | succ count =>
    obtain ⟨result, -, hresult, hfolds⟩ := many1_folds hp hanswer htotal hwhole
      (fun index hindex => Bool.not_eq_true _ ▸ hsuccess index hindex) hfailure
    exact ⟨result, hresult, hfolds.ok⟩

theorem progresses_characterMatch (suits : Char → Bool) (expected : String) :
    Progresses (characterMatch suits expected) where
  disciplined := (satisfy_answers suits expected).disciplined (.satisfy suits expected)
  takes view := by
    unfold characterMatch
    cases hchars : view.chars with
    | nil => exact fun hok => by cases hok
    | cons c rest =>
      have hsize : 0 < view.size := by
        rw [← View.length_chars, hchars]
        exact Nat.succ_pos _
      dsimp only
      split
      · intro _
        simp only [Match.taken, View.drop, View.size] at *
        omega
      · exact fun hok => by cases hok

theorem characterMatch_value {suits : Char → Bool} {expected : String}
    (hok : (characterMatch suits expected view).failed = false) :
    ∃ c rest, view.chars = c :: rest ∧ suits c = true ∧
      characterMatch suits expected view = .taken view 1 (.str (String.singleton c)) := by
  unfold characterMatch at hok ⊢
  cases hchars : view.chars with
  | nil =>
    rw [hchars] at hok
    cases hok
  | cons c rest =>
    simp only [hchars] at hok ⊢
    by_cases hc : suits c = true
    · exact ⟨c, rest, rfl, hc, if_pos hc⟩
    · rw [if_neg hc] at hok
      cases hok

theorem joining_extends :
    Combiner.joining.Extends (fun value => ∃ text, value = .str text)
      (fun value => ∃ text, value = .str text) := by
  rintro _ _ ⟨text, rfl⟩ ⟨text', rfl⟩
  exact ⟨_, Value.add_str text text', rfl, _, rfl⟩

-- The other combiners make something of any payloads.
theorem present_extends : ∀ combine ∈ [Combiner.pairing, .first, .second],
    combine.Extends (fun value => value.isAbsent = false) (fun value => value.isAbsent = false) := by
  intro combine hcombine left right hleft hright
  simp only [List.mem_cons, List.not_mem_nil, or_false] at hcombine
  rcases hcombine with rfl | rfl | rfl
  · exact ⟨.pair left right, rfl, rfl, rfl⟩
  · exact ⟨left, rfl, hleft, hleft⟩
  · exact ⟨right, rfl, hright, hright⟩

-- As many matches as there are in a row are taken, and combined from the right. Where there is none,
-- a repetition that may be empty takes nothing, and the other one fails as the parser does. Any of
-- the combiners will do, but that the one that joins needs texts.
theorem repetition_takes_all (hp : p.Answers answer) (hanswer : Progresses answer)
    (htotal : combine.Extends whole whole)
    (hwhole : ∀ view, (answer view).failed = false → whole (answer view).value) :
    (∀ view, ∃ count ≤ view.size,
      (∀ index < count, (answer (leftAfter answer view index)).failed = false) ∧
        (answer (leftAfter answer view count)).failed = true ∧
        (count = 0 → many1 p combine view = pure (answer view) ∧
          many p combine view = pure (.taken view 0 (.str ""))) ∧
        ∀ front, count = front + 1 → ∃ result,
          many1 p combine view = pure result ∧ many p combine view = pure result ∧
          result.Folds view (leftAfter answer view count)
            ((payloads answer view front).foldrM combine
              (answer (leftAfter answer view front)).value) ∧
          OfRow combine (payloads answer view front) (answer (leftAfter answer view front)).value
            result.value) ∧
      (∀ view, ∃ result, many p combine view = pure result ∧ result.failed = false) ∧
      (∀ rules view, ∃ result, Pattern.blanks.parser rules view = pure result ∧
        result.failed = false) ∧
      (∀ combine ∈ [Combiner.pairing, .first, .second],
        combine.Extends (fun value => value.isAbsent = false)
          (fun value => value.isAbsent = false)) ∧
      Combiner.joining.Extends (fun value => ∃ text, value = .str text)
        (fun value => ∃ text, value = .str text) := by
  refine ⟨fun view => ?_, many_succeeds hp hanswer htotal hwhole, fun rules view => ?_,
    present_extends, joining_extends⟩
  · obtain ⟨count, hfailure, hbefore⟩ :=
      exists_first_end hanswer (fun view => (answer view).failed = true) (fun _ h => h) view
    have hsuccess : ∀ index < count, (answer (leftAfter answer view index)).failed = false :=
      fun index hindex => Bool.not_eq_true _ ▸ hbefore index hindex
    refine ⟨count, count_le_size hanswer hsuccess, hsuccess, hfailure, ?_, ?_⟩
    · rintro rfl
      exact many1_of_failed hp hfailure
    · rintro front rfl
      obtain ⟨result, hmany1, hmany, hfolds⟩ :=
        many1_folds hp hanswer htotal hwhole hsuccess hfailure
      exact ⟨result, hmany1, hmany, hfolds, ofRow_of_foldrM hfolds.combined⟩
  · refine many_succeeds (satisfy_answers _ _) (progresses_characterMatch _ _) joining_extends
      (fun view hok => ?_) view
    obtain ⟨c, -, -, -, htaken⟩ := characterMatch_value hok
    exact ⟨_, congrArg Match.value htaken⟩

-- Three digits in a row, and then none.
theorem repetition_takes_all_digits :
    ∃ result, many1 (satisfy Char.isDigit "a digit") .joining (.ofText "120a" "") = pure result ∧
      many (satisfy Char.isDigit "a digit") .joining (.ofText "120a" "") = pure result ∧
      result.failed = false ∧ result.start = 0 ∧ result.rest.pos = 3 ∧
      result.value = .str "120" := by
  obtain ⟨hrows, -⟩ := repetition_takes_all (satisfy_answers Char.isDigit "a digit")
    (progresses_characterMatch _ _) joining_extends fun view hok => by
      obtain ⟨c, -, -, -, htaken⟩ := characterMatch_value hok
      exact ⟨_, congrArg Match.value htaken⟩
  obtain ⟨count, -, hsuccess, hfailure, -, hrow⟩ := hrows (.ofText "120a" "")
  have hcount : count = 3 := by
    rcases Nat.lt_trichotomy count 3 with hlt | heq | hgt
    · have hall : ∀ index < 3, (characterMatch Char.isDigit "a digit" (leftAfter
          (characterMatch Char.isDigit "a digit") (.ofText "120a" "") index)).failed = false := by
        decide
      rw [hall count hlt] at hfailure
      cases hfailure
    · exact heq
    · exact absurd (hsuccess 3 hgt) (by decide)
  subst hcount
  obtain ⟨result, hmany1, hmany, hfolds, hvalue⟩ := hrow 2 rfl
  refine ⟨result, hmany1, hmany, hfolds.ok, hfolds.start, ?_, ?_⟩
  · rw [hfolds.rest]
    decide
  · exact hvalue.joining rfl ["1", "2"] "0" rfl rfl

-- Any characters, as long as there are some.
theorem leftAfter_anyCharacter {expected : String} (hcount : count ≤ view.size) :
    leftAfter (characterMatch (fun _ => true) expected) view count = view.drop count := by
  induction count with
  | zero => exact (View.drop_zero view).symm
  | succ count ih =>
    rw [leftAfter, ih (by omega)]
    have hchars : (view.drop count).chars ≠ [] := by
      rw [← List.length_pos_iff, View.length_chars, View.size_drop]
      omega
    obtain ⟨c, rest, hcons⟩ := List.exists_cons_of_ne_nil hchars
    simp only [characterMatch, hcons, if_true, Match.taken, View.drop_drop]

theorem anyCharacter_failed_iff {expected : String} :
    (characterMatch (fun _ => true) expected view).failed = true ↔ view.size = 0 := by
  rw [← View.length_chars]
  unfold characterMatch
  cases view.chars with
  | nil => exact ⟨fun _ => rfl, fun _ => rfl⟩
  | cons c rest => simp [Match.taken, Match.failed, Value.isAbsent]

theorem many1Till_eq (hq : q.Answers stop) :
    many1Till p q combine = seq p (manyTill p q combine) combine := by
  have halt : alt q (manyTill p q combine) = manyTill p q combine := by
    funext view
    cases hfound : (stop view).failed with
    | false => exact (alt_eq_left (hq view) hfound).trans (alt_eq_left (hq view) hfound).symm
    | true => exact alt_eq_right (hq view) hfound
  rw [many1Till, halt]

-- A place in a view where the stop is found, the first one of them.
theorem stopsAt_anyCharacter_iff {expected : String} :
    StopsAt (characterMatch (fun _ => true) expected) stop view count ↔
      count ≤ view.size ∧ (stop (view.drop count)).failed = false ∧
        ∀ index < count, (stop (view.drop index)).failed = true := by
  constructor
  · intro h
    have hcount : count ≤ view.size := by
      by_contra hgt
      have hreached := (h.goesOn view.size (by omega)).2
      rw [leftAfter_anyCharacter (Nat.le_refl _)] at hreached
      have hempty : (view.drop view.size).size = 0 := by rw [View.size_drop, Nat.sub_self]
      rw [anyCharacter_failed_iff.mpr hempty] at hreached
      cases hreached
    have hfound := h.found
    rw [leftAfter_anyCharacter hcount] at hfound
    refine ⟨hcount, hfound, fun index hindex => ?_⟩
    have hnoStop := (h.goesOn index hindex).1
    rwa [leftAfter_anyCharacter (by omega)] at hnoStop
  · rintro ⟨hcount, hfound, hbefore⟩
    refine ⟨fun index hindex => ?_, ?_⟩
    · rw [leftAfter_anyCharacter (by omega)]
      refine ⟨hbefore index hindex, ?_⟩
      rw [Bool.eq_false_iff, Ne, anyCharacter_failed_iff, View.size_drop]
      omega
    · rwa [leftAfter_anyCharacter hcount]

theorem payloads_anyCharacter {expected : String} (hcount : count ≤ view.size) :
    payloads (characterMatch (fun _ => true) expected) view count =
      (view.chars.take count).map fun c => .str (String.singleton c) := by
  induction count generalizing view with
  | zero => rfl
  | succ count ih =>
    have hok : (characterMatch (fun _ => true) expected view).failed = false := by
      rw [Bool.eq_false_iff, Ne, anyCharacter_failed_iff]
      omega
    obtain ⟨c, rest, hchars, -, htaken⟩ := characterMatch_value hok
    have hrest : count ≤ (view.drop 1).size := by
      rw [View.size_drop]
      omega
    rw [payloads_succ, htaken, hchars, List.take_succ_cons, List.map_cons,
      ← View.chars_drop_one hchars, ← ih hrest]
    rfl

theorem manyTill_folds (hp : p.Answers body) (hq : q.Answers stop) (hbody : Progresses body)
    (hstop : ∀ view, (stop view).Disciplined view) (htotal : combine.Extends part whole)
    (hpart : ∀ view, (body view).failed = false → part (body view).value)
    (hwhole : ∀ view, (stop view).failed = false → whole (stop view).value)
    (h : StopsAt body stop view count) :
    ∃ result, manyTill p q combine view = pure result ∧
      result.Folds view (stop (leftAfter body view count)).rest
        ((payloads body view count).foldrM combine
          (stop (leftAfter body view count)).value) := by
  have hcount : count ≤ view.size :=
    count_le_size hbody fun index hindex => (h.goesOn index hindex).2
  obtain ⟨result, hresult, hfolds, -⟩ := repeatUntilWithin_folds hp hq hbody.disciplined hstop
    htotal hpart hwhole h (Nat.lt_succ_of_le hcount)
  exact ⟨result, hresult, hfolds⟩

theorem manyTill_stuck (hp : p.Answers body) (hq : q.Answers stop) (hbody : Progresses body)
    (h : StuckAt body stop view count) :
    manyTill p q combine view = pure ((body (leftAfter body view count)).rebase view) := by
  have hcount : count ≤ view.size :=
    count_le_size hbody fun index hindex => (h.goesOn index hindex).2
  exact repeatUntilWithin_stuck hp hq h (Nat.lt_succ_of_le hcount)

theorem manyTill_succeeds_iff (hp : p.Answers body) (hq : q.Answers stop) (hbody : Progresses body)
    (hstop : ∀ view, (stop view).Disciplined view) (htotal : combine.Extends part whole)
    (hpart : ∀ view, (body view).failed = false → part (body view).value)
    (hwhole : ∀ view, (stop view).failed = false → whole (stop view).value) (view : View) :
    (∃ result, manyTill p q combine view = pure result ∧ result.failed = false) ↔
      ∃ count, StopsAt body stop view count := by
  constructor
  · rintro ⟨result, hresult, hok⟩
    obtain ⟨count, hstops | hstuck⟩ := exists_stopsAt_or_stuckAt hbody stop view
    · exact ⟨count, hstops⟩
    · rw [ParseM.pure_inj (hresult.symm.trans (manyTill_stuck hp hq hbody hstuck))] at hok
      cases hok
  · rintro ⟨count, h⟩
    obtain ⟨result, hresult, hfolds⟩ := manyTill_folds hp hq hbody hstop htotal hpart hwhole h
    exact ⟨result, hresult, hfolds.ok⟩

-- The first stop ends a repetition, whatever the body could take there. Where no stop is found, the
-- failure is that of the body at the first place where there is neither.
theorem first_stop_ends_repetition (hp : p.Answers body) (hq : q.Answers stop)
    (hbody : Progresses body) (hstop : ∀ view, (stop view).Disciplined view)
    (htotal : combine.Extends part whole)
    (hpart : ∀ view, (body view).failed = false → part (body view).value)
    (hwhole : ∀ view, (stop view).failed = false → whole (stop view).value) :
    (∀ view,
      ((∃ result, manyTill p q combine view = pure result ∧ result.failed = false) ↔
          ∃ count, StopsAt body stop view count) ∧
        (∀ count, StopsAt body stop view count →
          ∃ result, manyTill p q combine view = pure result ∧
            result.Folds view (stop (leftAfter body view count)).rest
              ((payloads body view count).foldrM combine
                (stop (leftAfter body view count)).value)) ∧
        ((∀ count, ¬StopsAt body stop view count) →
          ∃ count, StuckAt body stop view count ∧
            manyTill p q combine view = pure (.failureAt view
              (body (leftAfter body view count)).complaint
              (body (leftAfter body view count)).errorAt))) ∧
      many1Till p q combine = seq p (manyTill p q combine) combine ∧
      ∀ (rules : RuleName → Parser) (pattern : Pattern), pattern.parser rules = q →
        (∀ c : Char, part (.str (String.singleton c))) → ∀ view,
        ((∃ result, (Pattern.charactersTill pattern combine).parser rules view = pure result ∧
            result.failed = false) ↔
          ∃ count ≤ view.size, (stop (view.drop count)).failed = false) ∧
          ∀ count ≤ view.size, (stop (view.drop count)).failed = false →
            (∀ index < count, (stop (view.drop index)).failed = true) →
            ∃ result, (Pattern.charactersTill pattern combine).parser rules view = pure result ∧
              result.Folds view (stop (view.drop count)).rest
                (((view.chars.take count).map fun c => .str (String.singleton c)).foldrM combine
                  (stop (view.drop count)).value) := by
  refine ⟨fun view => ⟨?_, ?_, ?_⟩, many1Till_eq hq, ?_⟩
  · exact manyTill_succeeds_iff hp hq hbody hstop htotal hpart hwhole view
  · exact fun count h => manyTill_folds hp hq hbody hstop htotal hpart hwhole h
  · intro hnone
    obtain ⟨count, hstops | hstuck⟩ := exists_stopsAt_or_stuckAt hbody stop view
    · exact absurd hstops (hnone count)
    · exact ⟨count, hstuck, manyTill_stuck hp hq hbody hstuck⟩
  · rintro rules pattern rfl hcharacter view
    have hany := satisfy_answers (fun _ => true) "any character"
    have hprogress := progresses_characterMatch (fun _ => true) "any character"
    have hcharacter' : ∀ view, (characterMatch (fun _ => true) "any character" view).failed = false →
        part (characterMatch (fun _ => true) "any character" view).value := by
      intro view hok
      obtain ⟨c, -, -, -, htaken⟩ := characterMatch_value hok
      exact htaken ▸ hcharacter c
    refine ⟨?_, fun count hcount hfound hbefore => ?_⟩
    · refine (manyTill_succeeds_iff hany hq hprogress hstop htotal hcharacter' hwhole view).trans ?_
      simp only [stopsAt_anyCharacter_iff]
      constructor
      · rintro ⟨count, hcount, hfound, -⟩
        exact ⟨count, hcount, hfound⟩
      · intro hexists
        obtain ⟨hcount, hfound⟩ := Nat.find_spec hexists
        refine ⟨Nat.find hexists, hcount, hfound, fun index hindex => ?_⟩
        have hnot := Nat.find_min hexists hindex
        rw [not_and, Bool.not_eq_false] at hnot
        exact hnot (by omega)
    · obtain ⟨result, hresult, hfolds⟩ := manyTill_folds hany hq hprogress hstop htotal hcharacter'
        hwhole (stopsAt_anyCharacter_iff.mpr ⟨hcount, hfound, hbefore⟩)
      rw [leftAfter_anyCharacter hcount, payloads_anyCharacter hcount] at hfolds
      exact ⟨result, hresult, hfolds⟩

-- The stop is taken, although it is a character like any other.
theorem first_stop_ends_repetition_at_a_sign :
    let sign := Pattern.satisfy (fun c => c = ';') "a sign"
    ∃ result, (Pattern.charactersTill sign .joining).parser (fun _ => stalled)
        (.ofText "ab;c;" "") = pure result ∧
      result.failed = false ∧ result.start = 0 ∧ result.rest.pos = 3 ∧
      result.value = .str "ab;" := by
  intro sign
  have hvalue : ∀ {suits : Char → Bool} {expected : String} (view : View),
      (characterMatch suits expected view).failed = false →
        ∃ text, (characterMatch suits expected view).value = .str text := by
    intro suits expected view hok
    obtain ⟨c, -, -, -, htaken⟩ := characterMatch_value hok
    exact ⟨_, congrArg Match.value htaken⟩
  obtain ⟨-, -, hcharacters⟩ := first_stop_ends_repetition
    (satisfy_answers (fun _ => true) "any character") (satisfy_answers (fun c => c = ';') "a sign")
    (progresses_characterMatch _ _) (progresses_characterMatch _ _).disciplined joining_extends
    hvalue hvalue
  obtain ⟨-, hstop⟩ := hcharacters (fun _ => stalled) sign rfl (fun c => ⟨_, rfl⟩)
    (.ofText "ab;c;" "")
  obtain ⟨result, hresult, hfolds⟩ := hstop 2 (by decide) (by decide) (by decide)
  refine ⟨result, hresult, hfolds.ok, hfolds.start, ?_, ?_⟩
  · rw [hfolds.rest]
    decide
  · exact (Except.ok.inj hfolds.combined).symm

end Parser

end Abacus
