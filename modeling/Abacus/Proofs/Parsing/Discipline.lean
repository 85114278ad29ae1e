import Abacus.Pattern.Text
import Abacus.Proofs.Parsing.Effects

namespace Abacus

-- What is left of a view after its first characters were taken.
def View.Leaves (view rest : View) : Prop :=
  rest.source = view.source ∧ rest.stop = view.stop ∧ view.pos ≤ rest.pos

namespace View.Leaves

theorem refl (view : View) : view.Leaves view := ⟨rfl, rfl, Nat.le_refl _⟩

theorem trans {view between rest : View} (h : view.Leaves between) (h' : between.Leaves rest) :
    view.Leaves rest :=
  ⟨h'.1.trans h.1, h'.2.1.trans h.2.1, Nat.le_trans h.2.2 h'.2.2⟩

theorem drop (view : View) (count : Nat) : view.Leaves (view.drop count) := by
  have := view.ordered
  refine ⟨rfl, rfl, ?_⟩
  simp only [View.drop]
  omega

end View.Leaves

namespace Match

-- Two successes make a success, or a fault.
theorem of_merge_eq_ok {combine : Combiner} {first second result : Match}
    (h : first.merge combine second = .ok result) :
    result.failed = false ∧ result.start = first.start ∧ result.rest = second.rest ∧
      combine first.value second.value = .ok result.value := by
  obtain ⟨value, hvalue, hsuccess⟩ := exists_of_success h
  have hok := failed_of_success hsuccess
  unfold success at hsuccess
  split at hsuccess
  · cases hsuccess
  · cases hsuccess
    exact ⟨hok, rfl, rfl, hvalue⟩

structure Disciplined (view : View) (result : Match) : Prop where
  begins : result.start = view.pos
  leaves : result.failed = false → view.Leaves result.rest
  fails : result.failed = true →
    result.rest = view ∧ (view.pos : Int) ≤ result.errorAt ∧ result.errorAt ≤ view.stop

theorem disciplined_failureAt {view : View} {offset : Int} (complaint : Complaint)
    (hfirst : (view.pos : Int) ≤ offset) (hlast : offset ≤ view.stop) :
    Disciplined view (failureAt view complaint offset) where
  begins := rfl
  leaves h := by cases h
  fails _ := ⟨rfl, hfirst, hlast⟩

theorem disciplined_failure (view : View) (complaint : Complaint) :
    Disciplined view (failure view complaint) :=
  disciplined_failureAt complaint (Int.le_refl _) (Int.ofNat_le.mpr view.ordered)

theorem disciplined_success {value : Value} {view rest : View} {result : Match}
    (hrest : view.Leaves rest) (h : success value view.pos rest = .ok result) :
    Disciplined view result := by
  have hok := failed_of_success h
  unfold success at h
  split at h
  · cases h
  · cases h
    exact ⟨rfl, fun _ => hrest, fun hf => by rw [hok] at hf; cases hf⟩

-- The offset of an inner failure lies in the outer input, as the inner input does.
theorem Disciplined.rebase {outer inner : View} {result : Match}
    (h : Disciplined inner result) (hf : result.failed = true)
    (hfirst : outer.pos ≤ inner.pos) (hlast : inner.stop ≤ outer.stop) :
    Disciplined outer (result.rebase outer) := by
  obtain ⟨_, hpos, hstop⟩ := h.fails hf
  exact disciplined_failureAt _ (by omega) (by omega)

theorem Disciplined.merge {outer between : View} {first second result : Match}
    {combine : Combiner} (hfirst : Disciplined outer first) (hbetween : outer.Leaves between)
    (hsecond : Disciplined between second) (hs : second.failed = false)
    (h : first.merge combine second = .ok result) : Disciplined outer result := by
  obtain ⟨value, -, hvalue⟩ := exists_of_success h
  rw [hfirst.begins] at hvalue
  exact disciplined_success (hbetween.trans (hsecond.leaves hs)) hvalue

end Match

-- Every remembered result keeps the discipline.
def ParseState.Disciplined (state : ParseState) : Prop :=
  ∀ rule view result, state.memo[MemoKey.of rule view]? = some result →
    Match.Disciplined view result

theorem ParseState.disciplined_of_empty {state : ParseState} (h : state.memo = ∅) :
    state.Disciplined := by
  intro rule view result hfound
  simp [h] at hfound

namespace Parser

def IsDisciplined (p : Parser) : Prop :=
  ∀ view, ParseM.Ensures ParseState.Disciplined (p view) (Match.Disciplined view)

namespace IsDisciplined

variable {p q : Parser} {combine : Combiner}

theorem always (value : Value) : IsDisciplined (Parser.always value) := fun view =>
  .lift fun _ h => Match.disciplined_success (.refl view) h

theorem never (complaint : Complaint) : IsDisciplined (Parser.never complaint) := fun view =>
  .pure (Match.disciplined_failure view complaint)

theorem satisfy (suits : Char → Bool) (expected : String) :
    IsDisciplined (Parser.satisfy suits expected) := by
  intro view
  unfold Parser.satisfy
  rw [View.next?_eq]
  cases view.chars.head? with
  | none => exact .pure (Match.disciplined_failure view _)
  | some c =>
    simp only [Option.map_some]
    split
    · exact .lift fun _ h => Match.disciplined_success (.drop view 1) h
    · exact .pure (Match.disciplined_failure view _)

theorem notAhead (hp : IsDisciplined p) : IsDisciplined (Parser.notAhead p) := by
  intro view
  refine .bind (hp view) fun result _ => ?_
  split
  · exact .lift fun _ h => Match.disciplined_success (.refl view) h
  · exact .pure (Match.disciplined_failure view _)

theorem seq (hp : IsDisciplined p) (hq : IsDisciplined q) :
    IsDisciplined (Parser.seq p q combine) := by
  intro view
  refine .bind (hp view) fun first hfirst => ?_
  split
  · next hf => exact .pure (hfirst.rebase hf (Nat.le_refl _) (Nat.le_refl _))
  · next hf =>
    have hleaves := hfirst.leaves (Bool.eq_false_iff.mpr hf)
    refine .bind (hq first.rest) fun second hsecond => ?_
    split
    · next hf' => exact .pure (hsecond.rebase hf' hleaves.2.2 (Nat.le_of_eq hleaves.2.1))
    · next hf' =>
      exact .lift fun _ h => hfirst.merge hleaves hsecond (Bool.eq_false_iff.mpr hf') h

theorem alt (hp : IsDisciplined p) (hq : IsDisciplined q) : IsDisciplined (Parser.alt p q) := by
  intro view
  refine .bind (hp view) fun first hfirst => ?_
  split
  · exact hq view
  · exact .pure hfirst

theorem both (hp : IsDisciplined p) (hq : IsDisciplined q) :
    IsDisciplined (Parser.both p q combine) := by
  intro view
  refine .bind (hp view) fun first hfirst => ?_
  split
  · next hf => exact .pure (hfirst.rebase hf (Nat.le_refl _) (Nat.le_refl _))
  · refine .bind (hq view) fun second hsecond => ?_
    split
    · next hf => exact .pure (hsecond.rebase hf (Nat.le_refl _) (Nat.le_refl _))
    · next hf =>
      exact .lift fun _ h => hfirst.merge (.refl view) hsecond (Bool.eq_false_iff.mpr hf) h

theorem complete (hp : IsDisciplined p) : IsDisciplined (Parser.complete p) := by
  intro view
  refine .bind (hp view) fun result hresult => ?_
  split
  · exact .pure hresult
  · next h =>
    simp only [Bool.or_eq_true, not_or, Bool.not_eq_true] at h
    obtain ⟨_, hstop, hpos⟩ := hresult.leaves h.1
    have := result.rest.ordered
    exact .pure (Match.disciplined_failureAt _ (by omega) (by omega))

theorem mapValue (hp : IsDisciplined p) (change : Value → Except Fault Value) :
    IsDisciplined (Parser.mapValue p change) := by
  intro view
  refine .bind (hp view) fun result hresult => ?_
  split
  · exact .pure hresult
  · next hf =>
    refine .lift fun changed h => ?_
    obtain ⟨value, -, hvalue⟩ := Match.exists_of_success h
    rw [hresult.begins] at hvalue
    exact Match.disciplined_success (hresult.leaves (Bool.eq_false_iff.mpr hf)) hvalue

theorem reword (hp : IsDisciplined p) (change : Complaint → Complaint) :
    IsDisciplined (Parser.reword p change) := by
  intro view
  refine .bind (hp view) fun result hresult => ?_
  split
  · exact .pure ⟨hresult.begins, hresult.leaves, hresult.fails⟩
  · exact .pure hresult

theorem watch (label : String) (hp : IsDisciplined p) :
    IsDisciplined (Parser.watch label p) := by
  intro view before result after hgood hrun
  let logged := { before with attempts := ⟨label, view.pos, view.stop⟩ :: before.attempts }
  exact hp view logged result after hgood hrun

-- A remembered result was disciplined when it was put into the table, for the view of its key.
theorem remember (rule : String) (hp : IsDisciplined p) :
    IsDisciplined (Parser.remember rule p) := by
  intro view before result after hgood hrun
  rcases run_remember_eq_ok.mp hrun with ⟨hfound, rfl⟩ | ⟨-, between, hinner, rfl⟩
  · exact ⟨hgood rule view result hfound, hgood⟩
  · obtain ⟨hresult, hbetween⟩ := hp view before result between hgood hinner
    refine ⟨hresult, fun rule' view' result' h => ?_⟩
    simp only [Std.TreeMap.getElem?_insert, Std.LawfulEqCmp.compare_eq_iff_eq,
      MemoKey.of_inj] at h
    split at h
    · next heq =>
      cases h
      exact heq.2 ▸ hresult
    · exact hbetween rule' view' result' h

theorem stalled : IsDisciplined Parser.stalled := fun _ => .throw _

theorem repeatWithin (hp : IsDisciplined p) (rounds : Nat) :
    IsDisciplined (Parser.repeatWithin p combine rounds) := by
  induction rounds with
  | zero => exact stalled
  | succ rounds ih => exact alt (seq hp ih) hp

theorem repeatUntilWithin (hp : IsDisciplined p) (hq : IsDisciplined q) (rounds : Nat) :
    IsDisciplined (Parser.repeatUntilWithin p q combine rounds) := by
  induction rounds with
  | zero => exact stalled
  | succ rounds ih => exact alt hq (seq hp ih)

theorem many1 (hp : IsDisciplined p) : IsDisciplined (Parser.many1 p combine) := fun view =>
  repeatWithin hp (view.size + 1) view

theorem manyTill (hp : IsDisciplined p) (hq : IsDisciplined q) :
    IsDisciplined (Parser.manyTill p q combine) := fun view =>
  repeatUntilWithin hp hq (view.size + 1) view

-- The last first part that failed began where the whole input begins, and ended inside of it.
theorem searchSplits (hp : IsDisciplined p) (hq : IsDisciplined q) (view : View)
    (cuts : List (View × View))
    (hcuts : ∀ cut ∈ cuts, cut.1.pos = view.pos ∧ cut.1.stop ≤ view.stop ∧ view.Leaves cut.2)
    (lastFailure : Option Match)
    (hlast : ∀ failure ∈ lastFailure, Match.Disciplined view (failure.rebase view)) :
    ParseM.Ensures ParseState.Disciplined
      (Parser.searchSplits p q combine view cuts lastFailure) (Match.Disciplined view) := by
  induction cuts generalizing lastFailure with
  | nil =>
    cases lastFailure with
    | none => exact .pure (Match.disciplined_failure view _)
    | some failure => exact .pure (hlast failure rfl)
  | cons cut cuts ih =>
    obtain ⟨front, back⟩ := cut
    obtain ⟨hpos, hstop, hback⟩ := hcuts (front, back) List.mem_cons_self
    have hrest := fun cut hcut => hcuts cut (List.mem_cons_of_mem _ hcut)
    refine .bind (hq back) fun second hsecond => ?_
    split
    · exact ih hrest lastFailure hlast
    · next hs =>
      refine .bind (complete hp front) fun first hfirst => ?_
      split
      · next hf =>
        refine ih hrest (some first) fun failure hfailure => ?_
        cases hfailure
        exact hfirst.rebase hf (Nat.le_of_eq hpos.symm) hstop
      · next hf =>
        refine .lift fun result h => ?_
        have hbegins : Match.Disciplined view { first with rest := view } :=
          ⟨by rw [← hpos]; exact hfirst.begins, fun _ => .refl view, fun h => absurd h hf⟩
        exact hbegins.merge hback hsecond (Bool.eq_false_iff.mpr hs) h

theorem splitShortest (hp : IsDisciplined p) (hq : IsDisciplined q) :
    IsDisciplined (Parser.splitShortest p q combine) := by
  intro view
  refine searchSplits hp hq view view.splits (fun cut hcut => ?_) none (fun _ h => by cases h)
  obtain ⟨count, _, rfl⟩ := List.mem_map.mp hcut
  exact ⟨rfl, Nat.min_le_right _ _, .drop view count⟩

end IsDisciplined

end Parser

namespace Pattern

-- Whether a match is changed as a whole anywhere, and not only its payload or its complaint.
def changesMatches : Pattern → Bool
  | always _ | never _ | satisfy .. | call _ => false
  | mapMatch .. => true
  | notAhead p | many1 p _ | complete p | remember _ p | mapValue p _ | reword p _ | watch _ p =>
      p.changesMatches
  | seq p q _ | alt p q | both p q _ | manyTill p q _ | splitShortest p q _ =>
      p.changesMatches || q.changesMatches

theorem isDisciplined_pattern {rules : RuleName → Parser}
    (hrules : ∀ name, (rules name).IsDisciplined) (p : Pattern) (hp : p.changesMatches = false) :
    Parser.IsDisciplined (p.parser rules) := by
  induction p with
  | always value => exact .always value
  | never complaint => exact .never complaint
  | satisfy suits expected => exact .satisfy suits expected
  | notAhead p ih => exact .notAhead (ih hp)
  | seq p q combine ihp ihq =>
    simp only [changesMatches, Bool.or_eq_false_iff] at hp
    exact .seq (ihp hp.1) (ihq hp.2)
  | alt p q ihp ihq =>
    simp only [changesMatches, Bool.or_eq_false_iff] at hp
    exact .alt (ihp hp.1) (ihq hp.2)
  | both p q combine ihp ihq =>
    simp only [changesMatches, Bool.or_eq_false_iff] at hp
    exact .both (ihp hp.1) (ihq hp.2)
  | many1 p combine ih => exact .many1 (ih hp)
  | manyTill body stop combine ihbody ihstop =>
    simp only [changesMatches, Bool.or_eq_false_iff] at hp
    exact .manyTill (ihbody hp.1) (ihstop hp.2)
  | complete p ih => exact .complete (ih hp)
  | splitShortest p q combine ihp ihq =>
    simp only [changesMatches, Bool.or_eq_false_iff] at hp
    exact .splitShortest (ihp hp.1) (ihq hp.2)
  | remember rule p ih => exact .remember rule (ih hp)
  | mapMatch p change ih => cases hp
  | mapValue p change ih => exact .mapValue (ih hp) change
  | reword p change ih => exact .reword (ih hp) change
  | watch label p ih => exact .watch label (ih hp)
  | call name => exact hrules name

end Pattern

namespace Rules

-- No rule changes matches.
def KeepMatches (rules : Rules) : Prop :=
  ∀ name body, rules.body? name = some body → body.changesMatches = false

theorem keepMatches_of_calculator {rules : Rules} (hnamed : rules.named = [])
    (hexpression : rules.expression.changesMatches = false)
    (hargument : rules.argument.changesMatches = false)
    (harguments : rules.arguments.changesMatches = false) : rules.KeepMatches := by
  intro name body hbody
  cases name with
  | expression =>
    cases hbody
    exact hexpression
  | argument =>
    cases hbody
    exact hargument
  | arguments =>
    cases hbody
    exact harguments
  | named name => simp [body?, hnamed] at hbody

theorem isDisciplined_runWithin {rules : Rules} (hrules : rules.KeepMatches) (depth : Nat)
    (name : RuleName) : Parser.IsDisciplined (rules.runWithin depth name) := by
  induction depth generalizing name with
  | zero => exact .stalled
  | succ depth ih =>
    intro view
    unfold runWithin
    split
    · exact .throw _
    · next body hbody =>
      exact Pattern.isDisciplined_pattern ih body (hrules name body hbody) view

end Rules

namespace Parsing

-- The table is empty at first, so that all it ever holds was put there by the run itself.
theorem match_discipline (rules : Rules) (hrules : rules.KeepMatches) (p : Pattern)
    (hp : p.changesMatches = false) (depth : Nat) (view : View) (before after : ParseState)
    (hmemo : before.memo = ∅) (result : Match)
    (hrun : (p.parser (rules.runWithin depth) view).run before = .ok (result, after)) :
    result.start = view.pos ∧
      (result.failed = false →
        result.rest.source = view.source ∧ result.rest.stop = view.stop ∧
          view.pos ≤ result.rest.pos ∧ result.rest.pos ≤ view.stop) ∧
      (result.failed = true →
        result.value = .absent ∧ result.rest = view ∧
          (view.pos : Int) ≤ result.errorAt ∧ result.errorAt ≤ view.stop) := by
  have hbefore : before.Disciplined := by
    intro rule view result h
    simp [hmemo] at h
  obtain ⟨hresult, -⟩ :=
    p.isDisciplined_pattern (rules.isDisciplined_runWithin hrules depth) hp view before result after
      hbefore hrun
  refine ⟨hresult.begins, fun hok => ?_, fun hf => ⟨result.failed_iff.mp hf, hresult.fails hf⟩⟩
  obtain ⟨hsource, hstop, hpos⟩ := hresult.leaves hok
  exact ⟨hsource, hstop, hpos, hstop ▸ result.rest.ordered⟩

-- The first two characters of `abc` are taken before the third one fails.
theorem match_discipline_behind_a_split :
    ∃ result after,
      ((Pattern.seq (.splitShortest (.remember "a" (.character 'a')) (.character 'b') .pairing)
        (.remember "a" (.character 'a')) .pairing).parser
          (Rules.runWithin ⟨.call .argument, .never .endOfInput, .call .arguments, []⟩ 1)
          (.ofText "abc" "")).run {} = .ok (result, after) ∧
        result.failed = true ∧ result.value = .absent ∧ result.rest = .ofText "abc" "" ∧
        0 ≤ result.errorAt ∧ result.errorAt ≤ 3 := by
  have hrules : Rules.KeepMatches ⟨.call .argument, .never .endOfInput, .call .arguments, []⟩ := by
    intro name body hbody
    cases name <;> cases hbody <;> rfl
  obtain ⟨result, after, hrun, hfailed⟩ : ∃ result after,
      ((Pattern.seq (.splitShortest (.remember "a" (.character 'a')) (.character 'b') .pairing)
        (.remember "a" (.character 'a')) .pairing).parser
          (Rules.runWithin ⟨.call .argument, .never .endOfInput, .call .arguments, []⟩ 1)
          (.ofText "abc" "")).run {} = .ok (result, after) ∧ result.failed = true :=
    ⟨_, _, rfl, rfl⟩
  obtain ⟨_, _, hfails⟩ := match_discipline _ hrules _ rfl 1 _ {} after rfl result hrun
  obtain ⟨hvalue, hrest, hfirst, hlast⟩ := hfails hfailed
  exact ⟨result, after, hrun, hfailed, hvalue, hrest, hfirst, hlast⟩

end Parsing

end Abacus
