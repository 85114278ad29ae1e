import Abacus.Pattern.Rules

namespace Abacus.ParseM

variable {α β : Type} {good : ParseState → Prop}

theorem run_pure_eq_ok {a b : α} {before after : ParseState} :
    (pure a : ParseM α).run before = .ok (b, after) ↔ a = b ∧ before = after := by
  change Except.ok (a, before) = Except.ok (b, after) ↔ _
  simp

theorem run_bind_eq_ok {x : ParseM α} {f : α → ParseM β} {b : β} {before after : ParseState} :
    (x >>= f).run before = .ok (b, after) ↔
      ∃ a between, x.run before = .ok (a, between) ∧ (f a).run between = .ok (b, after) := by
  rw [StateT.run_bind]
  cases h : x.run before with
  | error fault => simp [bind, Except.bind]
  | ok result =>
    simp only [bind, Except.bind, Except.ok.injEq]
    constructor
    · intro hrun
      exact ⟨result.1, result.2, rfl, hrun⟩
    · rintro ⟨a, between, rfl, hrun⟩
      exact hrun

theorem run_lift_eq_ok {e : Except Fault α} {a : α} {before after : ParseState} :
    (liftM e : ParseM α).run before = .ok (a, after) ↔ e = .ok a ∧ before = after := by
  cases e with
  | error fault =>
    change Except.error fault = Except.ok (a, after) ↔ _
    simp
  | ok b =>
    change Except.ok (b, before) = Except.ok (a, after) ↔ _
    simp

theorem lift_ok (a : α) : (liftM (Except.ok a : Except Fault α) : ParseM α) = pure a := rfl

theorem pure_inj {a b : α} (h : (pure a : ParseM α) = pure b) : a = b := by
  have hrun : Except.ok (a, ({} : ParseState)) = (Except.ok (b, {}) : Except Fault _) :=
    congrFun h {}
  exact congrArg Prod.fst (Except.ok.inj hrun)

-- Whatever a run from a good state comes to is as described, and the state is good again.
def Ensures (good : ParseState → Prop) (x : ParseM α) (described : α → Prop) : Prop :=
  ∀ before a after, good before → x.run before = .ok (a, after) → described a ∧ good after

namespace Ensures

variable {described : α → Prop}

theorem pure {a : α} (h : described a) : Ensures good (pure a) described := by
  intro before b after hgood hrun
  obtain ⟨rfl, rfl⟩ := run_pure_eq_ok.mp hrun
  exact ⟨h, hgood⟩

theorem bind {x : ParseM α} {f : α → ParseM β} {next : β → Prop}
    (hx : Ensures good x described) (hf : ∀ a, described a → Ensures good (f a) next) :
    Ensures good (x >>= f) next := by
  intro before b after hgood hrun
  obtain ⟨a, between, hxrun, hfrun⟩ := run_bind_eq_ok.mp hrun
  obtain ⟨ha, hbetween⟩ := hx before a between hgood hxrun
  exact hf a ha between b after hbetween hfrun

theorem lift {e : Except Fault α} (h : ∀ a, e = .ok a → described a) :
    Ensures good (liftM e) described := by
  intro before a after hgood hrun
  obtain ⟨rfl, rfl⟩ := run_lift_eq_ok.mp hrun
  exact ⟨h a rfl, hgood⟩

theorem throw (fault : Fault) : Ensures good (throw fault : ParseM α) described := by
  intro before a after _ hrun
  cases hrun

theorem and {described' : α → Prop} {x : ParseM α} (h : Ensures good x described)
    (h' : Ensures good x described') : Ensures good x fun a => described a ∧ described' a := by
  intro before a after hgood hrun
  obtain ⟨ha, hafter⟩ := h before a after hgood hrun
  exact ⟨⟨ha, (h' before a after hgood hrun).1⟩, hafter⟩

-- What comes next matters only for the results that there are.
theorem bind_congr {x : ParseM α} {f g : α → ParseM β} (hx : Ensures (fun _ => True) x described)
    (h : ∀ a, described a → f a = g a) : x >>= f = x >>= g := by
  funext before
  change (x >>= f).run before = (x >>= g).run before
  rw [StateT.run_bind, StateT.run_bind]
  cases hrun : x.run before with
  | error fault => rfl
  | ok result =>
    obtain ⟨a, between⟩ := result
    change (f a).run between = (g a).run between
    rw [h a (hx before a between trivial hrun).1]

end Ensures

-- Every result of `y` is a result of `x`, and states that are related are related again.
def Simulates (related : ParseState → ParseState → Prop) (x y : ParseM α) : Prop :=
  ∀ a before after, y.run before = .ok (a, after) →
    ∀ state, related state before → ∃ state', x.run state = .ok (a, state') ∧ related state' after

namespace Simulates

variable {related : ParseState → ParseState → Prop}

theorem pure (a : α) : Simulates related (pure a) (pure a) := by
  intro b before after hrun state hrelated
  obtain ⟨rfl, rfl⟩ := run_pure_eq_ok.mp hrun
  exact ⟨state, rfl, hrelated⟩

theorem bind {x y : ParseM α} {f g : α → ParseM β} (hx : Simulates related x y)
    (hf : ∀ a, Simulates related (f a) (g a)) : Simulates related (x >>= f) (y >>= g) := by
  intro b before after hrun state hrelated
  obtain ⟨a, between, hyrun, hgrun⟩ := run_bind_eq_ok.mp hrun
  obtain ⟨state', hxrun, hrelated'⟩ := hx a before between hyrun state hrelated
  obtain ⟨state'', hfrun, hrelated''⟩ := hf a b between after hgrun state' hrelated'
  exact ⟨state'', run_bind_eq_ok.mpr ⟨a, state', hxrun, hfrun⟩, hrelated''⟩

theorem lift (e : Except Fault α) : Simulates related (liftM e) (liftM e) := by
  intro a before after hrun state hrelated
  obtain ⟨rfl, rfl⟩ := run_lift_eq_ok.mp hrun
  exact ⟨state, rfl, hrelated⟩

theorem throw (x : ParseM α) (fault : Fault) : Simulates related x (throw fault) := by
  intro a before after hrun
  cases hrun

end Simulates

-- Every result of `y` is the result of `x` from any good state, and the state is good again.
def Refines (good : ParseState → Prop) (x y : ParseM α) : Prop :=
  ∀ a before after, y.run before = .ok (a, after) →
    ∀ state, good state → ∃ state', x.run state = .ok (a, state') ∧ good state'

theorem Refines.throw (x : ParseM α) (fault : Fault) : Refines good x (throw fault) :=
  Simulates.throw x fault

-- Both are faults, or both are results that are related.
inductive Outcomes (related : α → β → Prop) : Except Fault α → Except Fault β → Prop
  | error (fault fault' : Fault) : Outcomes related (.error fault) (.error fault')
  | ok {a : α} {b : β} : related a b → Outcomes related (.ok a) (.ok b)

theorem Outcomes.mono {related related' : α → β → Prop} {e : Except Fault α} {e' : Except Fault β}
    (h : Outcomes related e e') (himp : ∀ a b, related a b → related' a b) :
    Outcomes related' e e' := by
  cases h with
  | error fault fault' => exact .error fault fault'
  | ok h => exact .ok (himp _ _ h)

theorem Outcomes.bind {α' β' : Type} {related : α → β → Prop} {related' : α' → β' → Prop}
    {e : Except Fault α} {e' : Except Fault β} {f : α → Except Fault α'} {g : β → Except Fault β'}
    (h : Outcomes related e e') (hf : ∀ a b, related a b → Outcomes related' (f a) (g b)) :
    Outcomes related' (e >>= f) (e' >>= g) := by
  cases h with
  | error fault fault' => exact .error fault fault'
  | ok h => exact hf _ _ h

-- From states that are related, both runs come to faults, or to related results and states.
def Alike (states : ParseState → ParseState → Prop) (related : α → β → Prop) (x : ParseM α)
    (y : ParseM β) : Prop :=
  ∀ state state', states state state' →
    Outcomes (fun after after' => related after.1 after'.1 ∧ states after.2 after'.2)
      (x.run state) (y.run state')

namespace Alike

variable {α' β' : Type} {states : ParseState → ParseState → Prop} {related : α → β → Prop}

theorem pure {a : α} {b : β} (h : related a b) : Alike states related (pure a) (pure b) :=
  fun _ _ hstates => .ok ⟨h, hstates⟩

theorem lift {e : Except Fault α} {e' : Except Fault β} (h : Outcomes related e e') :
    Alike states related (liftM e) (liftM e') := by
  intro state state' hstates
  cases h with
  | error fault fault' => exact .error fault fault'
  | ok h => exact .ok ⟨h, hstates⟩

theorem throw (fault fault' : Fault) : Alike states related (throw fault) (throw fault') :=
  fun _ _ _ => .error fault fault'

theorem bind {related' : α' → β' → Prop} {x : ParseM α} {y : ParseM β} {f : α → ParseM α'}
    {g : β → ParseM β'} (hx : Alike states related x y)
    (hf : ∀ a b, related a b → Alike states related' (f a) (g b)) :
    Alike states related' (x >>= f) (y >>= g) := by
  intro state state' hstates
  rw [StateT.run_bind, StateT.run_bind]
  exact (hx state state' hstates).bind fun after after' h => hf _ _ h.1 _ _ h.2

end Alike

end Abacus.ParseM

namespace Abacus.Parser

-- Either the table has the result, or the parser is run and its result is put into the table.
theorem run_remember_eq_ok {rule : String} {p : Parser} {view : View} {result : Match}
    {before after : ParseState} :
    (remember rule p view).run before = .ok (result, after) ↔
      (before.memo[MemoKey.of rule view]? = some result ∧ before = after) ∨
        (before.memo[MemoKey.of rule view]? = none ∧
          ∃ between, (p view).run before = .ok (result, between) ∧
            after = { between with memo := between.memo.insert (.of rule view) result }) := by
  constructor
  · intro hrun
    obtain ⟨state, between, hget, hrun⟩ := ParseM.run_bind_eq_ok.mp hrun
    cases hget
    split at hrun
    · next hfound =>
      obtain ⟨rfl, rfl⟩ := ParseM.run_pure_eq_ok.mp hrun
      exact .inl ⟨hfound, rfl⟩
    · next habsent =>
      obtain ⟨found, between, hfound, hrun⟩ := ParseM.run_bind_eq_ok.mp hrun
      cases hrun
      exact .inr ⟨habsent, between, hfound, rfl⟩
  · rintro (⟨hfound, rfl⟩ | ⟨habsent, between, hinner, rfl⟩)
    · refine ParseM.run_bind_eq_ok.mpr ⟨before, before, rfl, ?_⟩
      simp only [hfound]
      rfl
    · refine ParseM.run_bind_eq_ok.mpr ⟨before, before, rfl, ?_⟩
      simp only [habsent]
      exact ParseM.run_bind_eq_ok.mpr ⟨result, between, hinner, rfl⟩

end Abacus.Parser
