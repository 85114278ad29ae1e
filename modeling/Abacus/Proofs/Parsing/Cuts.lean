import Abacus.Proofs.Parsing.Answers
import Abacus.Proofs.Parsing.Repetition
import Mathlib.Data.Nat.Find

namespace Abacus

-- What comes of a match that should take all of its view.
def Match.completed (view : View) (result : Match) : Match :=
  if result.failed || result.rest.isEmpty then result
  else .failureAt view (.unconsumed result.rest.text) result.rest.pos

namespace Parser

variable {p q : Parser} {first second : View → Match} {noted noted' : View → List Attempt}
  {combine : Combiner} {view : View} {cut : Nat} {lastFailure : Option Match} {state : ParseState}

theorem Answers.complete (h : p.Answers first) :
    (complete p).Answers fun view => (first view).completed view := by
  intro view
  simp only [Parser.complete, h view, pure_bind, Match.completed]
  split <;> rfl

theorem Notes.complete (h : p.Notes first noted) :
    (complete p).Notes (fun view => (first view).completed view) noted := by
  intro view state
  refine ParseM.run_bind_eq_ok.mpr ⟨first view, _, h view state, ?_⟩
  simp only [Match.completed]
  split <;> rfl

-- The second parser succeeds behind the cut, and the first one takes all that is in front of it.
structure CutWorks (first second : View → Match) (view : View) (cut : Nat) : Prop where
  positive : 1 ≤ cut
  inside : cut < view.size
  back : (second (view.drop cut)).failed = false
  front : (first (view.take cut)).failed = false
  whole : (first (view.take cut)).rest.isEmpty = true

structure FirstCut (first second : View → Match) (view : View) (cut : Nat) : Prop where
  works : CutWorks first second view cut
  least : ∀ earlier < cut, ¬CutWorks first second view earlier

-- The last cut behind which the second parser succeeds.
structure LastBack (second : View → Match) (view : View) (cut : Nat) : Prop where
  positive : 1 ≤ cut
  inside : cut < view.size
  back : (second (view.drop cut)).failed = false
  last : ∀ later, cut < later → later < view.size → (second (view.drop later)).failed = true

-- What is tried at a cut, the latest attempt first. The first parser runs only where the second one
-- succeeded.
def notedAt (second : View → Match) (noted noted' : View → List Attempt) (view : View) (cut : Nat) :
    List Attempt :=
  if (second (view.drop cut)).failed then noted' (view.drop cut)
  else noted (view.take cut) ++ noted' (view.drop cut)

-- The failure to report if no later cut works.
def failureBehind (first second : View → Match) (view : View) (lastFailure : Option Match)
    (cut : Nat) : Option Match :=
  if (second (view.drop cut)).failed then lastFailure
  else some ((first (view.take cut)).completed (view.take cut))

theorem completed_failed_iff {result : Match} :
    (result.completed view).failed = true ↔ ¬(result.failed = false ∧ result.rest.isEmpty = true) := by
  unfold Match.completed
  split
  · cases hf : result.failed <;> simp_all
  · next h =>
    simp only [Bool.or_eq_true, not_or, Bool.not_eq_true] at h
    simp [h]

theorem completed_eq_self {result : Match} (hempty : result.rest.isEmpty = true) :
    result.completed view = result := by
  simp [Match.completed, hempty]

-- The search passes over a cut that does not work.
theorem searchSplits_run_skip (hp : p.Notes first noted) (hq : q.Notes second noted')
    (hpositive : 1 ≤ cut) (hinside : cut < view.size) (hcut : ¬CutWorks first second view cut)
    (cuts : List (View × View)) :
    (searchSplits p q combine view ((view.take cut, view.drop cut) :: cuts) lastFailure).run state =
      (searchSplits p q combine view cuts (failureBehind first second view lastFailure cut)).run
        (state.noting (notedAt second noted noted' view cut)) := by
  rw [searchSplits, hq.run_bind]
  cases hback : (second (view.drop cut)).failed with
  | true => simp only [notedAt, failureBehind, hback, if_true]
  | false =>
    have hfront : ((first (view.take cut)).completed (view.take cut)).failed = true := by
      rw [completed_failed_iff]
      rintro ⟨hok, hempty⟩
      exact hcut ⟨hpositive, hinside, hback, hok, hempty⟩
    simp only [Bool.false_eq_true, if_false, hp.complete.run_bind, hfront, if_true, notedAt,
      failureBehind, hback, ParseState.noting_noting]

-- The search ends at a cut that works.
theorem searchSplits_run_take (hp : p.Notes first noted) (hq : q.Notes second noted')
    (hcut : CutWorks first second view cut) (cuts : List (View × View)) :
    (searchSplits p q combine view ((view.take cut, view.drop cut) :: cuts) lastFailure).run state =
      ((first (view.take cut)).merge combine (second (view.drop cut))).map fun result =>
        (result, state.noting (notedAt second noted noted' view cut)) := by
  rw [searchSplits, hq.run_bind]
  simp only [hcut.back, Bool.false_eq_true, if_false, hp.complete.run_bind,
    completed_eq_self hcut.whole, hcut.front, notedAt, ParseState.noting_noting]
  cases (first (view.take cut)).merge combine (second (view.drop cut)) <;> rfl

-- What is tried at the first cuts, the latest attempt first.
def notedUpTo (second : View → Match) (noted noted' : View → List Attempt) (view : View)
    (cut : Nat) : List Attempt :=
  (List.range' 1 cut).reverse.flatMap (notedAt second noted noted' view)

theorem searchSplits_run_skips (hp : p.Notes first noted) (hq : q.Notes second noted')
    (start length : Nat) (hpositive : 1 ≤ start)
    (hcuts : ∀ cut, start ≤ cut → cut < start + length →
      cut < view.size ∧ ¬CutWorks first second view cut)
    (cuts : List (View × View)) :
    (searchSplits p q combine view (cutsFrom view start length ++ cuts) lastFailure).run state =
      (searchSplits p q combine view cuts
        ((List.range' start length).foldl (failureBehind first second view) lastFailure)).run
          (state.noting
            ((List.range' start length).reverse.flatMap (notedAt second noted noted' view))) := by
  induction length generalizing start lastFailure state with
  | zero => rfl
  | succ length ih =>
    obtain ⟨hinside, hcut⟩ := hcuts start (Nat.le_refl _) (by omega)
    refine (searchSplits_run_skip hp hq hpositive hinside hcut
      (cutsFrom view (start + 1) length ++ cuts)).trans ?_
    rw [ih (start + 1) (by omega) fun cut hfirst hlast => hcuts cut (by omega) (by omega),
      List.range'_succ, List.foldl_cons, List.reverse_cons, List.flatMap_append,
      List.flatMap_singleton, ParseState.noting_noting]

-- All cuts: those in front of one of them, itself, and those behind it.
theorem cuts_eq (hpositive : 1 ≤ cut) (hinside : cut < view.size) :
    List.range' 1 (view.size - 1) =
      List.range' 1 (cut - 1) ++ cut :: List.range' (cut + 1) (view.size - 1 - cut) := by
  have hlength : view.size - 1 = (cut - 1) + (view.size - 1 - cut + 1) := by omega
  have hstart : 1 + (cut - 1) = cut := by omega
  rw [hlength, ← List.range'_append_1, hstart, List.range'_succ]
  congr 3
  omega

theorem splits_eq (hpositive : 1 ≤ cut) (hinside : cut < view.size) :
    view.splits = cutsFrom view 1 (cut - 1) ++
      (view.take cut, view.drop cut) :: cutsFrom view (cut + 1) (view.size - 1 - cut) := by
  rw [View.splits, cuts_eq hpositive hinside, List.map_append]
  rfl

theorem splitShortest_run_take (hp : p.Notes first noted) (hq : q.Notes second noted')
    (hcut : FirstCut first second view cut) :
    (splitShortest p q combine view).run state =
      ((first (view.take cut)).merge combine (second (view.drop cut))).map fun result =>
        (result, state.noting (notedUpTo second noted noted' view cut)) := by
  have hpositive := hcut.works.positive
  have hinside := hcut.works.inside
  rw [splitShortest, splits_eq hpositive hinside,
    searchSplits_run_skips hp hq 1 (cut - 1) (Nat.le_refl _)
      (fun other _ hlast => ⟨by omega, hcut.least other (by omega)⟩),
    searchSplits_run_take hp hq hcut.works, ParseState.noting_noting, notedUpTo]
  have hrange : List.range' 1 cut = List.range' 1 (cut - 1) ++ [cut] := by
    rw [show cut = cut - 1 + 1 by omega, List.range'_1_concat]
    congr 2
    omega
  rw [hrange, List.reverse_concat, List.flatMap_cons]

-- What a search comes to where no cut works.
def searchFailure (first second : View → Match) (view : View) : Match :=
  match (List.range' 1 (view.size - 1)).foldl (failureBehind first second view) none with
  | none => .failure view .noSplit
  | some failure => failure.rebase view

theorem foldl_failureBehind {cuts : List Nat}
    (h : ∀ cut ∈ cuts, (second (view.drop cut)).failed = true) :
    cuts.foldl (failureBehind first second view) lastFailure = lastFailure := by
  induction cuts generalizing lastFailure with
  | nil => rfl
  | cons cut cuts ih =>
    have hcut : failureBehind first second view lastFailure cut = lastFailure :=
      if_pos (h cut List.mem_cons_self)
    rw [List.foldl_cons, hcut]
    exact ih fun other hother => h other (List.mem_cons_of_mem _ hother)

theorem searchFailure_of_none
    (h : ∀ cut, 1 ≤ cut → cut < view.size → (second (view.drop cut)).failed = true) :
    searchFailure first second view = .failure view .noSplit := by
  rw [searchFailure, foldl_failureBehind fun cut hcut => ?_]
  have hrange := List.mem_range'_1.mp hcut
  exact h cut hrange.1 (by omega)

theorem searchFailure_of_last (h : LastBack second view cut) :
    searchFailure first second view =
      ((first (view.take cut)).completed (view.take cut)).rebase view := by
  have hbehind : ∀ lastFailure, failureBehind first second view lastFailure cut =
      some ((first (view.take cut)).completed (view.take cut)) := by
    intro lastFailure
    simp only [failureBehind, h.back, Bool.false_eq_true, if_false]
  rw [searchFailure, cuts_eq h.positive h.inside, List.foldl_append, List.foldl_cons, hbehind,
    foldl_failureBehind fun later hlater => ?_]
  have hrange := List.mem_range'_1.mp hlater
  exact h.last later hrange.1 (by omega)

theorem searchFailure_failed (first second : View → Match) (view : View) :
    (searchFailure first second view).failed = true := by
  unfold searchFailure
  split <;> rfl

theorem splitShortest_run_fail (hp : p.Notes first noted) (hq : q.Notes second noted')
    (hcuts : ∀ cut, ¬CutWorks first second view cut) :
    (splitShortest p q combine view).run state =
      .ok (searchFailure first second view,
        state.noting (notedUpTo second noted noted' view (view.size - 1))) := by
  have hskip : (searchSplits p q combine view (cutsFrom view 1 (view.size - 1) ++ []) none).run
      state = _ :=
    searchSplits_run_skips hp hq 1 (view.size - 1) (Nat.le_refl _)
      (fun cut _ hlast => ⟨by omega, hcuts cut⟩) []
  rw [List.append_nil] at hskip
  refine hskip.trans ?_
  unfold searchFailure
  cases (List.range' 1 (view.size - 1)).foldl (failureBehind first second view) none <;> rfl

-- Parsers that note nothing leave the log as it is.
theorem notedUpTo_nil (second : View → Match) (view : View) (cut : Nat) :
    notedUpTo second (fun _ => []) (fun _ => []) view cut = [] := by
  simp [notedUpTo, notedAt]

theorem splitShortest_eq_merge (hp : p.Answers first) (hq : q.Answers second)
    (hcut : FirstCut first second view cut) :
    splitShortest p q combine view =
      liftM ((first (view.take cut)).merge combine (second (view.drop cut))) := by
  funext state
  refine (splitShortest_run_take hp.notes hq.notes hcut).trans ?_
  rw [notedUpTo_nil]
  cases (first (view.take cut)).merge combine (second (view.drop cut)) <;> rfl

theorem splitShortest_eq_failure (hp : p.Answers first) (hq : q.Answers second)
    (hcuts : ∀ cut, ¬CutWorks first second view cut) :
    splitShortest p q combine view = pure (searchFailure first second view) := by
  funext state
  refine (splitShortest_run_fail hp.notes hq.notes hcuts).trans ?_
  rw [notedUpTo_nil]
  rfl

theorem exists_firstCut (h : CutWorks first second view cut) :
    ∃ least, FirstCut first second view least := by
  classical
  have hexists : ∃ cut, CutWorks first second view cut := ⟨cut, h⟩
  exact ⟨Nat.find hexists, Nat.find_spec hexists, fun _ => Nat.find_min hexists⟩

-- The cuts that are tried are the first ones, and what is tried at each of them is as said above.
def TriesUpTo (p q : Parser) (combine : Combiner) (second : View → Match) (view : View)
    (cut : Nat) : Prop :=
  ∀ frontLabel backLabel state,
    (splitShortest (watch frontLabel p) (watch backLabel q) combine view).run state =
      (splitShortest p q combine view).run (state.noting (notedUpTo second
        (fun view => [.on frontLabel view]) (fun view => [.on backLabel view]) view cut))

-- The first cut that works is chosen, and no later one is tried. Where none works, the last cut
-- behind which the second parser succeeds has the complaint.
theorem split_is_shortest (hp : p.Answers first) (hq : q.Answers second)
    (hfirst : ∀ view, (first view).Disciplined view) (combine : Combiner) (view : View) :
    ((∀ cut, CutWorks first second view cut →
        ∃ value, combine (first (view.take cut)).value (second (view.drop cut)).value = .ok value ∧
          value.isAbsent = false) →
      ((∃ result, splitShortest p q combine view = pure result ∧ result.failed = false) ↔
        ∃ cut, CutWorks first second view cut)) ∧
      (∀ cut, FirstCut first second view cut →
        splitShortest p q combine view =
            liftM ((first (view.take cut)).merge combine (second (view.drop cut))) ∧
          (∀ result, (first (view.take cut)).merge combine (second (view.drop cut)) = .ok result →
            result.failed = false ∧ result.start = view.pos ∧
              result.rest = (second (view.drop cut)).rest ∧
              combine (first (view.take cut)).value (second (view.drop cut)).value =
                .ok result.value) ∧
          TriesUpTo p q combine second view cut) ∧
      ((∀ cut, ¬CutWorks first second view cut) →
        (∃ failure, splitShortest p q combine view = pure failure ∧ failure.failed = true) ∧
          ((∀ cut, 1 ≤ cut → cut < view.size → (second (view.drop cut)).failed = true) →
            splitShortest p q combine view = pure (.failure view .noSplit)) ∧
          (∀ cut, LastBack second view cut →
            ∃ failure, complete p (view.take cut) = pure failure ∧ failure.failed = true ∧
              splitShortest p q combine view =
                pure (.failureAt view failure.complaint failure.errorAt)) ∧
          TriesUpTo p q combine second view (view.size - 1)) := by
  refine ⟨fun htotal => ⟨?_, ?_⟩, fun cut hcut => ⟨?_, ?_, ?_⟩, fun hcuts => ⟨?_, ?_, ?_, ?_⟩⟩
  · rintro ⟨result, hresult, hok⟩
    by_contra hnone
    have hcuts : ∀ cut, ¬CutWorks first second view cut := fun cut h => hnone ⟨cut, h⟩
    have hsame := ParseM.pure_inj (hresult.symm.trans (splitShortest_eq_failure hp hq hcuts))
    rw [hsame, searchFailure_failed] at hok
    cases hok
  · rintro ⟨cut, h⟩
    obtain ⟨least, hleast⟩ := exists_firstCut h
    obtain ⟨value, hvalue, hpresent⟩ := htotal least hleast.works
    have hmerge : splitShortest p q combine view = _ := splitShortest_eq_merge hp hq hleast
    rw [Match.merge_eq_ok hvalue hpresent, ParseM.lift_ok] at hmerge
    exact ⟨_, hmerge, hpresent⟩
  · exact splitShortest_eq_merge hp hq hcut
  · intro result hresult
    obtain ⟨hok, hstart, hrest, hvalue⟩ := Match.of_merge_eq_ok hresult
    exact ⟨hok, hstart.trans (hfirst (view.take cut)).begins, hrest, hvalue⟩
  · intro frontLabel backLabel state
    rw [splitShortest_run_take (hp.watch frontLabel) (hq.watch backLabel) hcut,
      splitShortest_eq_merge hp hq hcut]
    cases (first (view.take cut)).merge combine (second (view.drop cut)) <;> rfl
  · exact ⟨_, splitShortest_eq_failure hp hq hcuts, searchFailure_failed first second view⟩
  · intro hnone
    rw [splitShortest_eq_failure hp hq hcuts, searchFailure_of_none hnone]
  · intro cut hlast
    refine ⟨_, hp.complete (view.take cut), ?_, ?_⟩
    · rw [completed_failed_iff]
      rintro ⟨hok, hempty⟩
      exact hcuts cut ⟨hlast.positive, hlast.inside, hlast.back, hok, hempty⟩
    · rw [splitShortest_eq_failure hp hq hcuts, searchFailure_of_last hlast]
      rfl
  · intro frontLabel backLabel state
    rw [splitShortest_run_fail (hp.watch frontLabel) (hq.watch backLabel) hcuts,
      splitShortest_eq_failure hp hq hcuts]
    rfl

-- Of three signs the first one counts, and what is behind it is not looked at.
theorem split_is_shortest_at_the_first_sign :
    let whole : View → Match := fun view => .taken view view.size (.str view.text)
    let sign := satisfy (fun c => c = '+') "a sign"
    ∃ result, splitShortest (fun view => pure (whole view)) sign .pairing (.ofText "ab+c+d+" "") =
        pure result ∧
      result.failed = false ∧ result.start = 0 ∧ result.rest.pos = 3 ∧
      result.value = .pair (.str "ab") (.str "+") ∧
      TriesUpTo (fun view => pure (whole view)) sign .pairing
        (characterMatch (fun c => c = '+') "a sign") (.ofText "ab+c+d+" "") 2 := by
  intro whole sign
  have hwhole : Answers (fun view => pure (whole view)) whole := fun _ => rfl
  obtain ⟨-, hchosen, -⟩ := split_is_shortest hwhole (satisfy_answers (fun c => c = '+') "a sign")
    (fun view => Match.disciplined_taken view view.size rfl) .pairing (.ofText "ab+c+d+" "")
  have hfirst : FirstCut whole (characterMatch (fun c => c = '+') "a sign")
      (.ofText "ab+c+d+" "") 2 := by
    refine ⟨⟨by decide, by decide, by decide, rfl, by decide⟩, fun earlier hlt hworks => ?_⟩
    have hone : earlier = 1 := by
      have := hworks.positive
      omega
    subst hone
    exact absurd hworks.back (by decide)
  obtain ⟨hmerge, hresult, htries⟩ := hchosen 2 hfirst
  have htext : (View.take (.ofText "ab+c+d+" "") 2).text = "ab" := by decide
  have hpair : (whole (View.take (.ofText "ab+c+d+" "") 2)).merge .pairing
      (characterMatch (fun c => c = '+') "a sign" (View.drop (.ofText "ab+c+d+" "") 2)) = .ok _ :=
    Match.merge_eq_ok rfl rfl
  obtain ⟨hok, hstart, hrest, hvalue⟩ := hresult _ hpair
  rw [hpair, ParseM.lift_ok] at hmerge
  refine ⟨_, hmerge, hok, hstart, ?_, ?_, htries⟩
  · rw [hrest]
    decide
  · change Value.pair (.str (View.take (.ofText "ab+c+d+" "") 2).text) _ = _
    rw [htext]
    rfl

end Parser

end Abacus
