import Abacus.Tree.Evaluation

namespace Abacus

-- The trees of an expression over some functions. A chain of arguments occurs as the arguments of a
-- call only, where it has an end, and no tree is a root.
inductive Value.Proper (names : List String) : Value → Prop
  | number (x : Float) : Proper names (.number x)
  | binary (operator : Operator) {left right : Value} :
      Proper names left → Proper names right → Proper names (.binary operator left right)
  | call {name : String} {values : List Value} :
      name ∈ names → (∀ value ∈ values, Proper names value) →
      Proper names (.call name (.ofArguments values))

theorem Registry.exists_get? {σ : Type} {registry : Registry σ} {name : String}
    (h : name ∈ registry.names) : ∃ closure, registry.get? name = some closure := by
  obtain ⟨entry, hentry, rfl⟩ := List.mem_map.mp h
  have hfound : (registry.entries.find? (·.1 == entry.1)).isSome = true :=
    List.find?_isSome.mpr ⟨entry, hentry, beq_self_eq_true _⟩
  obtain ⟨found, hfound⟩ := Option.isSome_iff_exists.mp hfound
  exact ⟨found.2, by rw [Registry.get?, hfound, Option.map_some]⟩

-- A failed call of a known function.
def Anomaly.IsFailedCall (names : List String) (anomaly : Anomaly) : Prop :=
  ∃ name ∈ names, ∃ fault, anomaly = .failedCall name fault

theorem Anomaly.IsFailedCall.message {names : List String} {anomaly : Anomaly}
    (h : anomaly.IsFailedCall names) : ∃ words, anomaly.message = "invalid call: " ++ words := by
  obtain ⟨name, -, fault, rfl⟩ := h
  change ∃ words, callFailure name fault = "invalid call: " ++ words
  unfold callFailure
  split
  · next function expected received => exact ⟨Fault.arityText function expected received, rfl⟩
  · exact ⟨name ++ (": " ++ fault.shown), by simp only [String.append_assoc]⟩

namespace Evaluation

variable {σ α β : Type} {names : List String}

theorem run_call (name : String) (closure : Closure σ) (arguments : List Float)
    (before : Evaluation σ) :
    (call name closure arguments).run before =
      (match ((closure arguments).run before.state).1.bind Value.toFloat with
        | .ok x => (pure x : EvalM σ Float)
        | .error fault => report (.failedCall name fault)).run
        { before with state := ((closure arguments).run before.state).2 } := rfl

-- Nothing is taken from the reports, and only failed calls are added.
def ReportsFailedCalls (names : List String) (x : EvalM σ α) : Prop :=
  ∀ before, ∃ failures, (x.run before).2.reports = before.reports ++ failures ∧
    ∀ anomaly ∈ failures, anomaly.IsFailedCall names

namespace ReportsFailedCalls

theorem pure (a : α) : ReportsFailedCalls names (pure a : EvalM σ α) := fun before =>
  ⟨[], (List.append_nil before.reports).symm, List.forall_mem_nil _⟩

theorem bind {x : EvalM σ α} {f : α → EvalM σ β} (hx : ReportsFailedCalls names x)
    (hf : ∀ a, ReportsFailedCalls names (f a)) : ReportsFailedCalls names (x >>= f) := by
  intro before
  obtain ⟨failures, hreports, hfailures⟩ := hx before
  obtain ⟨failures', hreports', hfailures'⟩ := hf (x.run before).1 (x.run before).2
  refine ⟨failures ++ failures', ?_, List.forall_mem_append.mpr ⟨hfailures, hfailures'⟩⟩
  rw [← List.append_assoc, ← hreports, ← hreports']
  rfl

theorem report {anomaly : Anomaly} (h : anomaly.IsFailedCall names) :
    ReportsFailedCalls names (report anomaly : EvalM σ Float) := fun _ =>
  ⟨[anomaly], rfl, List.forall_mem_singleton.mpr h⟩

-- The state that the function leaves has no part in the reports.
theorem call {name : String} (hname : name ∈ names) (closure : Closure σ)
    (arguments : List Float) : ReportsFailedCalls names (call name closure arguments) := by
  intro before
  rw [run_call]
  cases ((closure arguments).run before.state).1.bind Value.toFloat with
  | ok x => exact pure x _
  | error fault => exact report ⟨name, hname, fault, rfl⟩ _

theorem evalArguments {registry : Registry σ} {values : List Value}
    (h : ∀ value ∈ values, ReportsFailedCalls names (eval registry value)) :
    ReportsFailedCalls names (evalArguments registry (.ofArguments values)) := by
  induction values with
  | nil => exact pure []
  | cons value values ih =>
    rw [Value.ofArguments, Evaluation.evalArguments]
    refine (h value List.mem_cons_self).bind fun x => ?_
    exact (ih fun v hv => h v (List.mem_cons_of_mem _ hv)).bind fun xs => pure _

theorem eval {registry : Registry σ} {tree : Value} (h : tree.Proper registry.names) :
    ReportsFailedCalls registry.names (eval registry tree) := by
  induction h with
  | number x =>
    rw [Evaluation.eval]
    exact pure x
  | binary operator _ _ ihleft ihright =>
    rw [Evaluation.eval]
    exact ihleft.bind fun x => ihright.bind fun y => pure _
  | @call name values hname _ ih =>
    obtain ⟨closure, hclosure⟩ := Registry.exists_get? hname
    rw [Evaluation.eval, hclosure]
    exact (evalArguments ih).bind fun xs => call hname closure xs

end ReportsFailedCalls

end Evaluation

end Abacus
