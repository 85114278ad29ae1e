import Abacus.Function.Closure
import Abacus.Proofs.Tree.Visits

namespace Abacus

open Evaluation

variable {σ : Type}

-- A function and its arguments.
abbrev Call := String × List Float

-- A function that writes down its calls beside its state.
def Closure.logging (name : String) (closure : Closure σ) : Closure (σ × List Call) :=
  fun arguments => ExceptT.mk fun (state, log) =>
    let (result, after) := (closure arguments).run state
    (result, (after, log ++ [(name, arguments)]))

namespace Registry

def logging (registry : Registry σ) : Registry (σ × List Call) where
  entries := registry.entries.map fun (name, closure) => (name, closure.logging name)
  isFrozen := registry.isFrozen

variable (registry : Registry σ)

-- The call that settles a node, if there is one.
def called : Value → List Float → List Call
  | .call name _, operands => if (registry.get? name).isSome then [(name, operands)] else []
  | _, _ => []

def calls (visits : List (Visit σ)) : List Call :=
  visits.flatMap fun visit => registry.called visit.node visit.operands

variable {registry}

theorem get?_logging (name : String) :
    registry.logging.get? name = (registry.get? name).map (Closure.logging name) := by
  simp only [get?, logging, List.find?_map, Option.map_map]
  refine Option.map_congr fun entry hentry => ?_
  have hname := List.find?_some hentry
  change (entry.1 == name) = true at hname
  exact congrArg (Closure.logging · entry.2) (eq_of_beq hname)

theorem settle_logging (registry : Registry σ) (node : Value) (operands : List Float) (state : σ)
    (log : List Call) :
    registry.logging.settle node operands (state, log) =
      { value := (registry.settle node operands state).value
        report? := (registry.settle node operands state).report?
        state := ((registry.settle node operands state).state,
          log ++ registry.called node operands) } := by
  cases node with
  | call name args =>
    simp only [settle, settleCall, get?_logging, called]
    cases hclosure : registry.get? name with
    | none => simp
    | some closure =>
      have hrun : (closure.logging name operands).run (state, log) =
          (((closure operands).run state).1,
            (((closure operands).run state).2, log ++ [(name, operands)])) := rfl
      simp only [Option.map_some, Option.isSome_some, if_true, hrun, Outcome.ofAnswer]
      cases ((closure operands).run state).1.bind Value.toFloat <;> rfl
  | _ => simp [settle, called]

-- The same walk, with its calls behind those that were written down before.
structure Logs (registry : Registry σ) (log : List Call) {α : Type} (recording : Recording σ α)
    (logged : Recording (σ × List Call) α) : Prop where
  result : logged.result = recording.result
  reports : registry.logging.reports logged.visits = registry.reports recording.visits
  state : logged.state = (recording.state, log ++ registry.calls recording.visits)

theorem Logs.visitLast {log : List Call} {operands : Recording σ (List Float)}
    {logged : Recording (σ × List Call) (List Float)} (h : registry.Logs log operands logged)
    (node : Value) :
    registry.Logs log (registry.visitLast node operands)
      (registry.logging.visitLast node logged) := by
  obtain ⟨visits, result, state⟩ := logged
  obtain ⟨rfl, hreports, rfl⟩ := h
  have hsettle := registry.settle_logging node operands.result operands.state
    (log ++ registry.calls operands.visits)
  refine ⟨congrArg Outcome.value hsettle, ?_, (congrArg Outcome.state hsettle).trans ?_⟩
  · have hlast := congrArg Outcome.report? hsettle
    change registry.logging.reports visits = registry.reports operands.visits at hreports
    simp only [Registry.visitLast, reports_append, reports_singleton, hreports, Visit.outcome,
      hlast]
  · simp [Registry.visitLast, calls, Visit.outcome]

end Registry

-- Whether the visit is of no node at the place or below it.
def Visit.isOutside (place : Place) (visit : Visit σ) : Bool := ¬place <+: visit.place

namespace Registry

-- No function uses the state, and so none changes it.
def Stateless (registry : Registry σ) : Prop :=
  ∀ name closure, registry.get? name = some closure →
    ∃ answer : List Float → Except Fault Value, ∀ arguments state,
      (closure arguments).run state = (answer arguments, state)

variable {registry : Registry σ}

theorem Stateless.settle (h : registry.Stateless) (node : Value) (operands : List Float)
    (state : σ) : (registry.settle node operands state).state = state := by
  cases node with
  | call name args =>
    simp only [Registry.settle, settleCall]
    cases hclosure : registry.get? name with
    | none => rfl
    | some closure =>
      obtain ⟨answer, hanswer⟩ := h name closure hclosure
      simp only [hanswer, Outcome.ofAnswer]
      split <;> rfl
  | _ => rfl

theorem Stateless.chained (h : registry.Stateless) {visits : List (Visit σ)} {before after : σ}
    (hchained : registry.Chained visits before after) : after = before := by
  induction visits generalizing before with
  | nil => exact hchained
  | cons visit visits ih =>
    rw [ih hchained.2, Visit.outcome, h.settle, hchained.1]

-- The same numbers and state, with the reports from outside the place.
structure Omits (registry : Registry σ) (place : Place) {α : Type}
    (recording other : Recording σ α) : Prop where
  result : other.result = recording.result
  state : other.state = recording.state
  reports : registry.reports other.visits =
    registry.reports (recording.visits.filter (Visit.isOutside place))

section RecordAll

variable {record other : σ → Recording σ Float} {records others : List (σ → Recording σ Float)}
  {place : Place} {i j : Nat} {state : σ}

end RecordAll

-- The node itself stands at no place below one of its operands.
theorem Omits.visitLast {node other : Value} {operands others : Recording σ (List Float)} {i : Nat}
    {place : Place} (h : registry.Omits (i :: place) operands others)
    (hsettle : ∀ numbers state,
      registry.settle other numbers state = registry.settle node numbers state) :
    registry.Omits (i :: place) (registry.visitLast node operands)
      (registry.visitLast other others) := by
  have hlast : (⟨[], other, others.result, others.state⟩ : Visit σ).outcome registry =
      (⟨[], node, operands.result, operands.state⟩ : Visit σ).outcome registry := by
    simp only [Visit.outcome, h.result, h.state, hsettle]
  refine ⟨congrArg Outcome.value hlast, congrArg Outcome.state hlast, ?_⟩
  have houtside : ([⟨[], node, operands.result, operands.state⟩] : List (Visit σ)).filter
      (Visit.isOutside (i :: place)) = [⟨[], node, operands.result, operands.state⟩] := by
    simp [Visit.isOutside]
  simp only [Registry.visitLast, List.filter_append, houtside, reports_append, reports_singleton,
    h.reports, hlast]

end Registry

end Abacus
