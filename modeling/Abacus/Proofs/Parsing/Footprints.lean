import Abacus.Proofs.Parsing.Advances
import Abacus.Proofs.Parsing.Transparency

namespace Abacus

-- Another view of the same source that lies inside of the view.
structure View.Holds (view inner : View) : Prop where
  source : inner.source = view.source
  first : view.pos ≤ inner.pos
  last : inner.stop ≤ view.stop

theorem View.Leaves.holds {view rest : View} (h : view.Leaves rest) : view.Holds rest :=
  ⟨h.1, h.2.2, Nat.le_of_eq h.2.1⟩

theorem View.Holds.refl (view : View) : view.Holds view := (View.Leaves.refl view).holds

namespace ParseM

variable {α : Type} {change change' : ParseState → ParseState → Prop}

-- A run from a table that keeps the discipline changes the state in this way only.
def Changes (change : ParseState → ParseState → Prop) (x : ParseM α) : Prop :=
  ∀ before a after, before.Disciplined → x.run before = .ok (a, after) → change before after

theorem Changes.throw (fault : Fault) : Changes change (throw fault : ParseM α) := by
  intro before a after _ hrun
  cases hrun

theorem Changes.mono {x : ParseM α} (hx : Changes change x)
    (himp : ∀ before after, change before after → change' before after) : Changes change' x :=
  fun before a after hgood hrun => himp before after (hx before a after hgood hrun)

end ParseM

-- How the state is changed by reading a view. It is told for all parts of the view, and for those
-- that are strictly smaller; what is done to a part of the view is done to the view.
structure Footprint (change : Bool → View → ParseState → ParseState → Prop) : Prop where
  refl : ∀ strictly view state, change strictly view state state
  trans : ∀ {strictly view before between after}, change strictly view before between →
    change strictly view between after → change strictly view before after
  widen : ∀ {strictly strictly' view inner before after}, view.Holds inner →
    (strictly' = true → strictly = true ∨ inner.size < view.size) →
    change strictly inner before after → change strictly' view before after

namespace Footprint

open ParseM

variable {α β : Type} {change : Bool → View → ParseState → ParseState → Prop}
  {strictly strictly' taking : Bool} {view : View} {p q : Parser} {combine : Combiner}

theorem pure (h : Footprint change) (a : α) :
    Changes (change strictly view) (pure a : ParseM α) := by
  intro before b after _ hrun
  obtain ⟨rfl, rfl⟩ := run_pure_eq_ok.mp hrun
  exact h.refl strictly view before

theorem lift (h : Footprint change) (e : Except Fault α) :
    Changes (change strictly view) (liftM e : ParseM α) := by
  intro before a after _ hrun
  obtain ⟨rfl, rfl⟩ := run_lift_eq_ok.mp hrun
  exact h.refl strictly view before

theorem bind (h : Footprint change) {x : ParseM α} {f : α → ParseM β} {described : α → Prop}
    (hx : Changes (change strictly view) x) (hdescribed : Ensures ParseState.Disciplined x described)
    (hf : ∀ a, described a → Changes (change strictly view) (f a)) :
    Changes (change strictly view) (x >>= f) := by
  intro before b after hgood hrun
  obtain ⟨a, between, hxrun, hfrun⟩ := run_bind_eq_ok.mp hrun
  obtain ⟨ha, hbetween⟩ := hdescribed before a between hgood hxrun
  exact h.trans (hx before a between hgood hxrun) (hf a ha between b after hbetween hfrun)

theorem ofPart (h : Footprint change) {inner : View} {x : ParseM α} (hinner : view.Holds inner)
    (hsmaller : strictly' = true → strictly = true ∨ inner.size < view.size)
    (hx : Changes (change strictly inner) x) : Changes (change strictly' view) x :=
  hx.mono fun _ _ hchange => h.widen hinner hsmaller hchange

theorem weaken (h : Footprint change) {x : ParseM α} (himp : strictly' = true → strictly = true)
    (hx : Changes (change strictly view) x) : Changes (change strictly' view) x :=
  h.ofPart (.refl view) (fun hstrictly => .inl (himp hstrictly)) hx

theorem satisfy (h : Footprint change) (suits : Char → Bool) (expected : String) :
    Changes (change strictly view) (Parser.satisfy suits expected view) := by
  unfold Parser.satisfy
  split
  · exact h.pure _
  · split
    · exact h.lift _
    · exact h.pure _

theorem notAhead (h : Footprint change) (hp : p.IsDisciplined)
    (hfirst : Changes (change strictly view) (p view)) :
    Changes (change strictly view) (Parser.notAhead p view) := by
  refine h.bind hfirst (hp view) fun result _ => ?_
  split
  · exact h.lift _
  · exact h.pure _

theorem seq (h : Footprint change) (hp : p.IsDisciplined) (hq : q.IsDisciplined)
    (htakes : p.Advances taking) (hfirst : Changes (change strictly view) (p view))
    (hrest : ∀ rest, view.Leaves rest → (taking = true → view.pos < rest.pos) →
      Changes (change strictly view) (q rest)) :
    Changes (change strictly view) (Parser.seq p q combine view) := by
  refine h.bind hfirst ((hp view).and (htakes view)) fun first ⟨hdisciplined, htaken⟩ => ?_
  split
  · exact h.pure _
  · next hf =>
    have hok := Bool.eq_false_iff.mpr hf
    refine h.bind (hrest first.rest (hdisciplined.leaves hok) fun htaking => htaken htaking hok)
      (hq first.rest) fun second _ => ?_
    split
    · exact h.pure _
    · exact h.lift _

theorem alt (h : Footprint change) (hp : p.IsDisciplined)
    (hfirst : Changes (change strictly view) (p view))
    (hsecond : Changes (change strictly view) (q view)) :
    Changes (change strictly view) (Parser.alt p q view) := by
  refine h.bind hfirst (hp view) fun first _ => ?_
  split
  · exact hsecond
  · exact h.pure _

theorem both (h : Footprint change) (hp : p.IsDisciplined) (hq : q.IsDisciplined)
    (hfirst : Changes (change strictly view) (p view))
    (hsecond : Changes (change strictly view) (q view)) :
    Changes (change strictly view) (Parser.both p q combine view) := by
  refine h.bind hfirst (hp view) fun first _ => ?_
  split
  · exact h.pure _
  · refine h.bind hsecond (hq view) fun second _ => ?_
    split
    · exact h.pure _
    · exact h.lift _

theorem complete (h : Footprint change) {input : View} (hp : p.IsDisciplined)
    (hfirst : Changes (change strictly view) (p input)) :
    Changes (change strictly view) (Parser.complete p input) := by
  refine h.bind hfirst (hp input) fun result _ => ?_
  split <;> exact h.pure _

theorem mapValue (h : Footprint change) (hp : p.IsDisciplined)
    (hfirst : Changes (change strictly view) (p view)) (changed : Value → Except Fault Value) :
    Changes (change strictly view) (Parser.mapValue p changed view) := by
  refine h.bind hfirst (hp view) fun result _ => ?_
  split
  · exact h.pure _
  · exact h.lift _

theorem reword (h : Footprint change) (hp : p.IsDisciplined)
    (hfirst : Changes (change strictly view) (p view)) (changed : Complaint → Complaint) :
    Changes (change strictly view) (Parser.reword p changed view) := by
  refine h.bind hfirst (hp view) fun result _ => ?_
  split <;> exact h.pure _

theorem repeatWithin (h : Footprint change) (hp : p.IsDisciplined)
    (hrounds : ∀ view, Changes (change strictly view) (p view)) (rounds : Nat) (view : View) :
    Changes (change strictly view) (Parser.repeatWithin p combine rounds view) := by
  induction rounds generalizing view with
  | zero => exact .throw _
  | succ rounds ih =>
    have hmore : Changes (change strictly view)
        (Parser.seq p (Parser.repeatWithin p combine rounds) combine view) :=
      h.seq hp (.repeatWithin hp rounds) (.idle hp) (hrounds view) fun rest hrest _ =>
        h.ofPart hrest.holds .inl (ih rest)
    exact h.alt (.seq hp (.repeatWithin hp rounds)) hmore (hrounds view)

theorem repeatUntilWithin (h : Footprint change) (hp : p.IsDisciplined) (hq : q.IsDisciplined)
    (hbody : ∀ view, Changes (change strictly view) (p view))
    (hstop : ∀ view, Changes (change strictly view) (q view)) (rounds : Nat) (view : View) :
    Changes (change strictly view) (Parser.repeatUntilWithin p q combine rounds view) := by
  induction rounds generalizing view with
  | zero => exact .throw _
  | succ rounds ih =>
    exact h.alt hq (hstop view) (h.seq hp (.repeatUntilWithin hp hq rounds) (.idle hp) (hbody view)
      fun rest hrest _ => h.ofPart hrest.holds .inl (ih rest))

-- Both parts of a cut are smaller than the whole, so that it does not matter whether calls are
-- guarded there.
theorem splitShortest (h : Footprint change) (hp : p.IsDisciplined) (hq : q.IsDisciplined)
    (hfront : ∀ view, Changes (change false view) (p view))
    (hback : ∀ view, Changes (change false view) (q view)) (view : View) :
    Changes (change true view) (Parser.splitShortest p q combine view) := by
  have hsearch : ∀ (cuts : List (View × View)) (lastFailure : Option Match),
      (∀ cut ∈ cuts, Changes (change true view) (p cut.1) ∧ Changes (change true view) (q cut.2)) →
      Changes (change true view) (Parser.searchSplits p q combine view cuts lastFailure) := by
    intro cuts
    induction cuts with
    | nil => intro lastFailure _; cases lastFailure <;> exact h.pure _
    | cons cut cuts ih =>
      intro lastFailure hcuts
      obtain ⟨hfront, hback⟩ := hcuts cut List.mem_cons_self
      have hrest := fun cut hcut => hcuts cut (List.mem_cons_of_mem _ hcut)
      refine h.bind hback (hq cut.2) fun second _ => ?_
      split
      · exact ih lastFailure hrest
      · refine h.bind (h.complete hp hfront) (Parser.IsDisciplined.complete hp cut.1)
          fun first _ => ?_
        split
        · exact ih (some first) hrest
        · exact h.lift _
  refine hsearch view.splits none fun cut hcut => ?_
  obtain ⟨count, hcount, rfl⟩ := List.mem_map.mp hcut
  have hrange := List.mem_range'_1.mp hcount
  have hshort : (view.take count).size < view.size := by rw [View.size_take]; omega
  have hrest : (view.drop count).size < view.size := by rw [View.size_drop]; omega
  have htake : view.Holds (view.take count) := ⟨rfl, Nat.le_refl _, Nat.min_le_right _ _⟩
  exact ⟨h.ofPart htake (fun _ => .inr hshort) (hfront _),
    h.ofPart (View.Leaves.drop view count).holds (fun _ => .inr hrest) (hback _)⟩

-- Looking into the table and logging leave the same footprint.
structure Open (change : Bool → View → ParseState → ParseState → Prop) : Prop where
  remember : ∀ {strictly view} (rule : String) {p : Parser},
    Changes (change strictly view) (p view) →
    Changes (change strictly view) (Parser.remember rule p view)
  watch : ∀ {view} (label : String) {p : Parser}, Changes (change false view) (p view) →
    Changes (change false view) (Parser.watch label p view)

end Footprint

namespace Pattern

-- Whether every call is reached on strictly smaller views only.
def guarded : Pattern → Bool
  | always _ | never _ | satisfy .. | splitShortest .. => true
  | mapMatch .. | watch .. | call _ => false
  | notAhead p | many1 p _ | complete p | remember _ p | mapValue p _ | reword p _ => p.guarded
  | seq p q _ => p.guarded && (p.advances || q.guarded)
  | alt p q | both p q _ | manyTill p q _ => p.guarded && q.guarded

variable {rules : RuleName → Parser} {change : Bool → View → ParseState → ParseState → Prop}

-- What the rules do to the state on every part of a view is all that a pattern does, and a guarded
-- one does it on strictly smaller parts. A pattern that is not quiet needs an open footprint.
theorem changes_pattern (h : Footprint change) (hrules : ∀ name, (rules name).IsDisciplined)
    (hcalls : ∀ name view, ParseM.Changes (change false view) (rules name view)) (p : Pattern)
    (hp : p.changesMatches = false) (hopen : p.quiet = true ∨ Footprint.Open change) (view : View) :
    ParseM.Changes (change p.guarded view) (p.parser rules view) := by
  have hdisciplined := fun q => isDisciplined_pattern hrules q
  -- What holds of both parts of a pattern holds of each of them.
  have hleft : ∀ {p q : Bool}, (p && q) = true → p = true := fun h => (Bool.and_eq_true_iff.mp h).1
  have hright : ∀ {p q : Bool}, (p && q) = true → q = true :=
    fun h => (Bool.and_eq_true_iff.mp h).2
  have hnever : ∀ {goal : Prop}, false = true → goal := fun h => absurd h Bool.false_ne_true
  induction p generalizing view with
  | always value => exact h.lift _
  | never complaint => exact h.pure _
  | satisfy suits expected => exact h.satisfy suits expected
  | notAhead p ih => exact h.notAhead (hdisciplined p hp) (ih hp hopen view)
  | seq p q combine ihp ihq =>
    simp only [changesMatches, Bool.or_eq_false_iff] at hp
    refine h.seq (hdisciplined p hp.1) (hdisciplined q hp.2) (parser_advances hrules p hp.1)
      (h.weaken hleft (ihp hp.1 (hopen.imp_left hleft) view)) fun rest hrest htaken =>
      h.ofPart hrest.holds (fun hguarded => ?_) (ihq hp.2 (hopen.imp_left hright) rest)
    rcases Bool.or_eq_true_iff.mp (hright hguarded) with htakes | hguarded
    · have := htaken htakes
      have := rest.ordered
      have := hrest.2.1
      right
      simp only [View.size]
      omega
    · exact .inl hguarded
  | alt p q ihp ihq =>
    simp only [changesMatches, Bool.or_eq_false_iff] at hp
    exact h.alt (hdisciplined p hp.1)
      (h.weaken hleft (ihp hp.1 (hopen.imp_left hleft) view))
      (h.weaken hright (ihq hp.2 (hopen.imp_left hright) view))
  | both p q combine ihp ihq =>
    simp only [changesMatches, Bool.or_eq_false_iff] at hp
    exact h.both (hdisciplined p hp.1) (hdisciplined q hp.2)
      (h.weaken hleft (ihp hp.1 (hopen.imp_left hleft) view))
      (h.weaken hright (ihq hp.2 (hopen.imp_left hright) view))
  | many1 p combine ih => exact h.repeatWithin (hdisciplined p hp) (ih hp hopen) _ view
  | manyTill body stop combine ihbody ihstop =>
    simp only [changesMatches, Bool.or_eq_false_iff] at hp
    exact h.repeatUntilWithin (hdisciplined body hp.1) (hdisciplined stop hp.2)
      (fun view => h.weaken hleft (ihbody hp.1 (hopen.imp_left hleft) view))
      (fun view => h.weaken hright (ihstop hp.2 (hopen.imp_left hright) view)) _ view
  | complete p ih => exact h.complete (hdisciplined p hp) (ih hp hopen view)
  | splitShortest p q combine ihp ihq =>
    simp only [changesMatches, Bool.or_eq_false_iff] at hp
    exact h.splitShortest (hdisciplined p hp.1) (hdisciplined q hp.2)
      (fun view => h.weaken hnever (ihp hp.1 (hopen.imp_left hleft) view))
      (fun view => h.weaken hnever (ihq hp.2 (hopen.imp_left hright) view)) view
  | remember rule p ih =>
    have hopen : Footprint.Open change := hopen.resolve_left hnever
    exact hopen.remember rule (ih hp (.inr hopen) view)
  | mapMatch p changed ih => cases hp
  | mapValue p changed ih => exact h.mapValue (hdisciplined p hp) (ih hp hopen view) changed
  | reword p changed ih => exact h.reword (hdisciplined p hp) (ih hp hopen view) changed
  | watch label p ih =>
    have hopen : Footprint.Open change := hopen.resolve_left hnever
    exact hopen.watch label (h.weaken hnever (ih hp (.inr hopen) view))
  | call name => exact hcalls name view

end Pattern

end Abacus
