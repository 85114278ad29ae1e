import Abacus.Proofs.Parsing.Discipline

namespace Abacus

namespace Parser

variable {p q : Parser} {taking taking' : Bool} {combine : Combiner}

-- If it is said to take something, a success takes at least one character.
def Advances (p : Parser) (taking : Bool) : Prop :=
  ∀ view, ParseM.Ensures ParseState.Disciplined (p view) fun result =>
    taking = true → result.failed = false → view.pos < result.rest.pos

namespace Advances

theorem idle (hp : IsDisciplined p) : Advances p false := by
  intro view before result after hgood hrun
  exact ⟨nofun, (hp view before result after hgood hrun).2⟩

theorem never (complaint : Complaint) : Advances (Parser.never complaint) true :=
  fun _ => .pure fun _ hok => by cases hok

theorem satisfy (suits : Char → Bool) (expected : String) :
    Advances (Parser.satisfy suits expected) true := by
  intro view
  unfold Parser.satisfy View.next?
  by_cases hempty : view.pos < view.stop
  · simp only [hempty, dite_true]
    split
    · refine .lift fun result h _ _ => ?_
      cases h
      simp only [View.drop]
      omega
    · exact .pure fun _ hok => by cases hok
  · simp only [hempty, dite_false]
    exact .pure fun _ hok => by cases hok

theorem seq (hp : IsDisciplined p) (hq : IsDisciplined q) (hptakes : Advances p taking)
    (hqtakes : Advances q taking') : Advances (Parser.seq p q combine) (taking || taking') := by
  intro view
  refine .bind ((hp view).and (hptakes view)) fun first ⟨hfirst, htakes⟩ => ?_
  split
  · exact .pure fun _ hok => by cases hok
  · next hf =>
    have hok := Bool.eq_false_iff.mpr hf
    refine .bind ((hq first.rest).and (hqtakes first.rest)) fun second ⟨hsecond, htakes'⟩ => ?_
    split
    · exact .pure fun _ hok => by cases hok
    · next hs =>
      have hok' := Bool.eq_false_iff.mpr hs
      refine .lift fun result hresult htaking _ => ?_
      have hfirstLeaves := (hfirst.leaves hok).2.2
      have hsecondLeaves := (hsecond.leaves hok').2.2
      rw [(Match.of_merge_eq_ok hresult).2.2.1]
      rcases Bool.or_eq_true_iff.mp htaking with htaking | htaking
      · have := htakes htaking hok
        omega
      · have := htakes' htaking hok'
        omega

theorem alt (hptakes : Advances p taking) (hqtakes : Advances q taking') :
    Advances (Parser.alt p q) (taking && taking') := by
  intro view
  refine .bind (hptakes view) fun first htakes => ?_
  split
  · intro before result after hgood hrun
    obtain ⟨hresult, hgood'⟩ := hqtakes view before result after hgood hrun
    exact ⟨fun htaking => hresult (Bool.and_eq_true_iff.mp htaking).2, hgood'⟩
  · exact .pure fun htaking => htakes (Bool.and_eq_true_iff.mp htaking).1

theorem complete (hptakes : Advances p taking) : Advances (Parser.complete p) taking := by
  intro view
  refine .bind (hptakes view) fun result htakes => ?_
  split
  · exact .pure htakes
  · exact .pure fun _ hok => by cases hok

theorem mapValue (hptakes : Advances p taking) (change : Value → Except Fault Value) :
    Advances (Parser.mapValue p change) taking := by
  intro view
  refine .bind (hptakes view) fun result htakes => ?_
  split
  · exact .pure htakes
  · next hf =>
    refine .lift fun changed h htaking _ => ?_
    obtain ⟨value, -, hsuccess⟩ := Match.exists_of_success h
    rw [(Match.value_and_rest_of_success hsuccess).2]
    exact htakes htaking (Bool.eq_false_iff.mpr hf)

theorem reword (hptakes : Advances p taking) (change : Complaint → Complaint) :
    Advances (Parser.reword p change) taking := by
  intro view
  refine .bind (hptakes view) fun result htakes => ?_
  split
  · exact .pure htakes
  · exact .pure htakes

theorem repeatWithin (hp : IsDisciplined p) (hptakes : Advances p taking) (rounds : Nat) :
    Advances (Parser.repeatWithin p combine rounds) taking := by
  induction rounds with
  | zero => exact fun _ => .throw _
  | succ rounds ih =>
    have hmore : Advances (Parser.seq p (Parser.repeatWithin p combine rounds) combine) _ :=
      seq hp (.repeatWithin hp rounds) hptakes ih
    rw [Bool.or_self] at hmore
    have h := hmore.alt hptakes
    rwa [Bool.and_self] at h

-- The second part of a cut begins behind the first one, which is not empty.
theorem searchSplits (hp : IsDisciplined p) (hq : IsDisciplined q) (view : View)
    (cuts : List (View × View)) (hcuts : ∀ cut ∈ cuts, view.pos < cut.2.pos)
    (lastFailure : Option Match) :
    ParseM.Ensures ParseState.Disciplined (Parser.searchSplits p q combine view cuts lastFailure)
      fun result => result.failed = false → view.pos < result.rest.pos := by
  induction cuts generalizing lastFailure with
  | nil => cases lastFailure <;> exact .pure fun hok => by cases hok
  | cons cut cuts ih =>
    obtain ⟨front, back⟩ := cut
    have hback : view.pos < back.pos := hcuts (front, back) List.mem_cons_self
    have hrest := fun cut hcut => hcuts cut (List.mem_cons_of_mem _ hcut)
    refine .bind (hq back) fun second hsecond => ?_
    split
    · exact ih hrest lastFailure
    · next hs =>
      refine .bind (IsDisciplined.complete hp front) fun first _ => ?_
      split
      · exact ih hrest (some first)
      · refine .lift fun result hresult _ => ?_
        rw [(Match.of_merge_eq_ok hresult).2.2.1]
        exact Nat.lt_of_lt_of_le hback (hsecond.leaves (Bool.eq_false_iff.mpr hs)).2.2

theorem splitShortest (hp : IsDisciplined p) (hq : IsDisciplined q) :
    Advances (Parser.splitShortest p q combine) true := by
  intro view before result after hgood hrun
  have hcuts : ∀ cut ∈ view.splits, view.pos < cut.2.pos := by
    intro cut hcut
    obtain ⟨count, hcount, rfl⟩ := List.mem_map.mp hcut
    have := List.mem_range'_1.mp hcount
    simp only [View.drop, View.size] at *
    omega
  obtain ⟨hresult, hgood'⟩ :=
    searchSplits hp hq view view.splits hcuts none before result after hgood hrun
  exact ⟨fun _ => hresult, hgood'⟩

end Advances

end Parser

namespace Pattern

-- Whether every success takes something, as far as that can be seen without looking at the rules.
def advances : Pattern → Bool
  | always _ | notAhead _ | both .. | manyTill .. | remember .. | mapMatch .. | watch .. | call _ =>
      false
  | never _ | satisfy .. | splitShortest .. => true
  | seq p q _ => p.advances || q.advances
  | alt p q => p.advances && q.advances
  | many1 p _ | complete p | mapValue p _ | reword p _ => p.advances

variable {rules : RuleName → Parser}

theorem parser_advances (hrules : ∀ name, (rules name).IsDisciplined) (p : Pattern)
    (hp : p.changesMatches = false) : Parser.Advances (p.parser rules) p.advances := by
  have hdisciplined := fun q => isDisciplined_pattern hrules q
  induction p with
  | never complaint => exact .never complaint
  | satisfy suits expected => exact .satisfy suits expected
  | seq p q combine ihp ihq =>
    simp only [changesMatches, Bool.or_eq_false_iff] at hp
    exact .seq (hdisciplined p hp.1) (hdisciplined q hp.2) (ihp hp.1) (ihq hp.2)
  | alt p q ihp ihq =>
    simp only [changesMatches, Bool.or_eq_false_iff] at hp
    exact .alt (ihp hp.1) (ihq hp.2)
  | many1 p combine ih =>
    exact fun view => Parser.Advances.repeatWithin (hdisciplined p hp) (ih hp) (view.size + 1) view
  | complete p ih => exact .complete (ih hp)
  | splitShortest p q combine ihp ihq =>
    simp only [changesMatches, Bool.or_eq_false_iff] at hp
    exact .splitShortest (hdisciplined p hp.1) (hdisciplined q hp.2)
  | mapValue p change ih => exact .mapValue (ih hp) change
  | reword p change ih => exact .reword (ih hp) change
  | always _ | notAhead _ _ | both _ _ _ _ _ | manyTill _ _ _ _ _ | remember _ _ _
  | mapMatch _ _ _ | watch _ _ _ | call _ => exact .idle (hdisciplined _ hp)

end Pattern

end Abacus
