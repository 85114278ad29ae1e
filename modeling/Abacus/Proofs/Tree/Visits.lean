import Abacus.Proofs.Tree.Evaluation
import Abacus.Proofs.Tree.Places

namespace Abacus

open Evaluation

variable {σ : Type}

-- What becomes of a node: its number, what is reported about it, and the state it leaves.
structure Outcome (σ : Type) where
  value : Float
  report? : Option Anomaly := none
  state : σ

-- A visit of a node, with the numbers of its operands and the state that it finds.
structure Visit (σ : Type) where
  place : Place
  node : Value
  operands : List Float
  state : σ

-- What a call answers is taken for a number, or reported if it is none.
def Outcome.ofAnswer (name : String) (answer : Except Fault Value × σ) : Outcome σ :=
  match answer.1.bind Value.toFloat with
  | .ok x => { value := x, state := answer.2 }
  | .error fault => { value := 0, report? := some (.failedCall name fault), state := answer.2 }

namespace Registry

variable (registry : Registry σ)

-- A known function is run once.
def settleCall (name : String) (operands : List Float) (state : σ) : Outcome σ :=
  match registry.get? name with
  | none => { value := 0, report? := some (.unknownFunction name), state := state }
  | some closure => .ofAnswer name ((closure operands).run state)

def settle (node : Value) (operands : List Float) (state : σ) : Outcome σ :=
  match node with
  | .number x => { value := x, state := state }
  | .root _ => { value := operands.getD 0 0, state := state }
  | .binary operator _ _ =>
      { value := operator.apply (operands.getD 0 0) (operands.getD 1 0), state := state }
  | .call name _ => registry.settleCall name operands state
  | node => { value := 0, report? := some (.unknownTag node), state := state }

variable {registry}

end Registry

namespace Evaluation

variable {registry : Registry σ} {node : Value} {operands : List Float}

variable (registry) in
def settled (node : Value) (operands : List Float) : EvalM σ Float := fun evaluation =>
  let outcome := registry.settle node operands evaluation.state
  (outcome.value, ⟨evaluation.reports ++ outcome.report?.toList, outcome.state⟩)

end Evaluation

-- What is visited on the way to a result, and the state afterwards.
structure Recording (σ α : Type) where
  visits : List (Visit σ)
  result : α
  state : σ

namespace Visit

variable (registry : Registry σ)

def outcome (visit : Visit σ) : Outcome σ :=
  registry.settle visit.node visit.operands visit.state

-- The visit as part of a visit of the node that it is a child of.
def under (i : Nat) (visit : Visit σ) : Visit σ := { visit with place := i :: visit.place }

end Visit

namespace Registry

variable (registry : Registry σ)

-- Records one operand after another, counted from `i`.
def recordAll : List (σ → Recording σ Float) → Nat → σ → Recording σ (List Float)
  | [], _, state => ⟨[], [], state⟩
  | record :: records, i, state =>
      let first := record state
      let others := recordAll records (i + 1) first.state
      ⟨first.visits.map (·.under i) ++ others.visits, first.result :: others.result, others.state⟩

-- Ends with the visit of the node itself.
def visitLast (node : Value) (operands : Recording σ (List Float)) : Recording σ Float :=
  let visit : Visit σ := ⟨[], node, operands.result, operands.state⟩
  let outcome := visit.outcome registry
  ⟨operands.visits ++ [visit], outcome.value, outcome.state⟩

def record (node : Value) (state : σ) : Recording σ Float :=
  registry.visitLast node <|
    recordAll ((registry.operandNodes node).attach.map fun ⟨operand, _⟩ => record operand) 0 state
termination_by sizeOf node
decreasing_by exact sizeOf_lt_of_mem_operandNodes ‹_›

-- The reports of the visits, in their order.
def reports (visits : List (Visit σ)) : List Anomaly :=
  visits.filterMap fun visit => (visit.outcome registry).report?

variable {registry}

@[simp] theorem reports_append (visits others : List (Visit σ)) :
    registry.reports (visits ++ others) = registry.reports visits ++ registry.reports others :=
  List.filterMap_append

@[simp] theorem reports_singleton (visit : Visit σ) :
    registry.reports [visit] = (visit.outcome registry).report?.toList := by
  cases hreport : (visit.outcome registry).report? <;> simp [reports, hreport]

variable (registry) in
-- What evaluation comes to, with earlier reports in front.
def answer {α : Type} (recording : Recording σ α) (before : List Anomaly) : α × Evaluation σ :=
  (recording.result, ⟨before ++ registry.reports recording.visits, recording.state⟩)

end Registry

-- The first visit finds the state that is given, and every visit leaves its state to the next.
def Registry.Chained (registry : Registry σ) : List (Visit σ) → σ → σ → Prop
  | [], before, after => after = before
  | visit :: visits, before, after =>
      visit.state = before ∧ Chained registry visits (visit.outcome registry).state after

-- A visited node has one number for each of its operands, and the visits of the operands come to
-- these numbers.
structure Registry.Fed (registry : Registry σ) (visits : List (Visit σ)) (visit : Visit σ) :
    Prop where
  counted : visit.operands.length = (registry.operandNodes visit.node).length
  numbers : ∀ i x, visit.operands[i]? = some x → ∃ operand ∈ visits,
    operand.place = visit.place ++ [i] ∧ (operand.outcome registry).value = x

-- A walk over a tree. It visits the nodes that evaluation reaches and no others.
structure Registry.Walks (registry : Registry σ) (tree : Value) (before : σ)
    (recording : Recording σ Float) : Prop where
  inOrder : recording.visits.Pairwise fun visit later => visit.place.Before later.place
  reached : ∀ place node, (∃ visit ∈ recording.visits, visit.place = place ∧ visit.node = node) ↔
    registry.Reaches tree place node
  fed : ∀ visit ∈ recording.visits, registry.Fed recording.visits visit
  chained : registry.Chained recording.visits before recording.state
  final : ∃ visit ∈ recording.visits,
    visit.place = [] ∧ (visit.outcome registry).value = recording.result

-- A walk over several trees, which are operands of one node from the `i`-th on.
structure Registry.WalksAll (registry : Registry σ) (nodes : List Value) (i : Nat) (before : σ)
    (recording : Recording σ (List Float)) : Prop where
  inOrder : recording.visits.Pairwise fun visit later => visit.place.Before later.place
  reached : ∀ place node, (∃ visit ∈ recording.visits, visit.place = place ∧ visit.node = node) ↔
    ∃ k operand rest, place = (i + k) :: rest ∧ nodes[k]? = some operand ∧
      registry.Reaches operand rest node
  fed : ∀ visit ∈ recording.visits, registry.Fed recording.visits visit
  chained : registry.Chained recording.visits before recording.state
  counted : recording.result.length = nodes.length
  numbers : ∀ k x, recording.result[k]? = some x → ∃ visit ∈ recording.visits,
    visit.place = [i + k] ∧ (visit.outcome registry).value = x

namespace Registry

variable {registry : Registry σ} {visits others : List (Visit σ)}

theorem Chained.append {before between after : σ} (h : registry.Chained visits before between)
    (hothers : registry.Chained others between after) :
    registry.Chained (visits ++ others) before after := by
  induction visits generalizing before with
  | nil => exact h ▸ hothers
  | cons visit visits ih => exact ⟨h.1, ih h.2⟩

theorem Chained.under {before after : σ} (i : Nat) (h : registry.Chained visits before after) :
    registry.Chained (visits.map (·.under i)) before after := by
  induction visits generalizing before with
  | nil => exact h
  | cons visit visits ih => exact ⟨h.1, ih h.2⟩

theorem Fed.mono {visit : Visit σ} (h : registry.Fed visits visit) (hsub : visits ⊆ others) :
    registry.Fed others visit where
  counted := h.counted
  numbers i x hx := by
    obtain ⟨operand, hoperand, hsame⟩ := h.numbers i x hx
    exact ⟨operand, hsub hoperand, hsame⟩

theorem Fed.under {visit : Visit σ} (i : Nat) (h : registry.Fed visits visit) :
    registry.Fed (visits.map (·.under i)) (visit.under i) where
  counted := h.counted
  numbers k x hx := by
    obtain ⟨operand, hoperand, hplace, hvalue⟩ := h.numbers k x hx
    exact ⟨operand.under i, List.mem_map_of_mem hoperand, congrArg (i :: ·) hplace, hvalue⟩

theorem Walks.nodup {tree : Value} {before : σ} {recording : Recording σ Float}
    (h : registry.Walks tree before recording) : (recording.visits.map Visit.place).Nodup := by
  refine List.pairwise_map.mpr (h.inOrder.imp fun {visit later} hbefore heq => ?_)
  exact Place.Before.irrefl visit.place (heq ▸ hbefore)

theorem WalksAll.nil (i : Nat) (state : σ) : registry.WalksAll [] i state ⟨[], [], state⟩ where
  inOrder := .nil
  reached := by simp
  fed := by simp
  chained := rfl
  counted := rfl
  numbers := by simp

-- The places of the walk have the numbers of the operands in front.
theorem WalksAll.exists_place {nodes : List Value} {i : Nat} {state : σ}
    {recording : Recording σ (List Float)} (h : registry.WalksAll nodes i state recording)
    {visit : Visit σ} (hvisit : visit ∈ recording.visits) :
    ∃ k rest, visit.place = (i + k) :: rest := by
  obtain ⟨k, -, rest, hplace, -⟩ := (h.reached visit.place visit.node).mp ⟨visit, hvisit, rfl, rfl⟩
  exact ⟨k, rest, hplace⟩

theorem WalksAll.cons {node : Value} {nodes : List Value} {i : Nat} {state : σ}
    {first : Recording σ Float} {others : Recording σ (List Float)}
    (hfirst : registry.Walks node state first)
    (hothers : registry.WalksAll nodes (i + 1) first.state others) :
    registry.WalksAll (node :: nodes) i state
      ⟨first.visits.map (·.under i) ++ others.visits, first.result :: others.result,
        others.state⟩ where
  inOrder := by
    refine List.pairwise_append.mpr ⟨?_, hothers.inOrder, fun moved hmoved later hlater => ?_⟩
    · exact List.pairwise_map.mpr (hfirst.inOrder.imp (Place.Before.under i))
    · obtain ⟨visit, -, rfl⟩ := List.mem_map.mp hmoved
      obtain ⟨k, rest, hplace⟩ := hothers.exists_place hlater
      rw [hplace]
      exact .left _ _ (by omega)
  reached := by
    intro place reachedNode
    constructor
    · rintro ⟨visit, hvisit, rfl, rfl⟩
      rcases List.mem_append.mp hvisit with hvisit | hvisit
      · obtain ⟨own, hown, rfl⟩ := List.mem_map.mp hvisit
        exact ⟨0, node, own.place, rfl, rfl, (hfirst.reached _ _).mp ⟨own, hown, rfl, rfl⟩⟩
      · obtain ⟨k, operand, rest, hplace, hoperand, hreaches⟩ :=
          (hothers.reached _ _).mp ⟨visit, hvisit, rfl, rfl⟩
        refine ⟨k + 1, operand, rest, ?_, hoperand, hreaches⟩
        rw [hplace, Nat.add_right_comm, Nat.add_assoc]
    · rintro ⟨k, operand, rest, rfl, hoperand, hreaches⟩
      cases k with
      | zero =>
        obtain rfl := Option.some.inj hoperand
        obtain ⟨own, hown, rfl, rfl⟩ := (hfirst.reached _ _).mpr hreaches
        exact ⟨own.under i, List.mem_append_left _ (List.mem_map_of_mem hown), rfl, rfl⟩
      | succ k =>
        obtain ⟨visit, hvisit, hplace, hnode⟩ :=
          (hothers.reached ((i + 1 + k) :: rest) reachedNode).mpr
            ⟨k, operand, rest, rfl, hoperand, hreaches⟩
        refine ⟨visit, List.mem_append_right _ hvisit, ?_, hnode⟩
        rw [hplace, Nat.add_right_comm, Nat.add_assoc]
  fed := by
    intro visit hvisit
    rcases List.mem_append.mp hvisit with hvisit | hvisit
    · obtain ⟨own, hown, rfl⟩ := List.mem_map.mp hvisit
      exact ((hfirst.fed own hown).under i).mono (List.subset_append_left ..)
    · exact (hothers.fed visit hvisit).mono (List.subset_append_right ..)
  chained := (hfirst.chained.under i).append hothers.chained
  counted := congrArg (· + 1) hothers.counted
  numbers := by
    intro k x hx
    cases k with
    | zero =>
      obtain rfl := Option.some.inj hx
      obtain ⟨visit, hvisit, hplace, hvalue⟩ := hfirst.final
      exact ⟨visit.under i, List.mem_append_left _ (List.mem_map_of_mem hvisit),
        congrArg (i :: ·) hplace, hvalue⟩
    | succ k =>
      obtain ⟨visit, hvisit, hplace, hvalue⟩ := hothers.numbers k x hx
      refine ⟨visit, List.mem_append_right _ hvisit, ?_, hvalue⟩
      rw [hplace, Nat.add_right_comm, Nat.add_assoc]

theorem Walks.visitLast {node : Value} {state : σ} {operands : Recording σ (List Float)}
    (h : registry.WalksAll (registry.operandNodes node) 0 state operands) :
    registry.Walks node state (registry.visitLast node operands) where
  inOrder := by
    refine List.pairwise_append.mpr ⟨h.inOrder, List.pairwise_singleton .., ?_⟩
    intro visit hvisit last hlast
    obtain ⟨k, rest, hplace⟩ := h.exists_place hvisit
    rw [List.mem_singleton.mp hlast, hplace]
    exact .inside ..
  reached := by
    intro place reachedNode
    constructor
    · rintro ⟨visit, hvisit, rfl, rfl⟩
      rcases List.mem_append.mp hvisit with hvisit | hvisit
      · obtain ⟨k, operand, rest, hplace, hoperand, hreaches⟩ :=
          (h.reached _ _).mp ⟨visit, hvisit, rfl, rfl⟩
        rw [hplace, Nat.zero_add]
        exact .further hoperand hreaches
      · rw [List.mem_singleton.mp hvisit]
        exact .here node
    · intro hreaches
      cases hreaches with
      | here =>
        exact ⟨⟨[], node, operands.result, operands.state⟩,
          List.mem_append_right _ List.mem_cons_self, rfl, rfl⟩
      | @further _ operand _ k rest hoperand hreaches =>
        obtain ⟨visit, hvisit, hplace, hnode⟩ := (h.reached ((0 + k) :: rest) reachedNode).mpr
          ⟨k, operand, rest, rfl, hoperand, hreaches⟩
        refine ⟨visit, List.mem_append_left _ hvisit, ?_, hnode⟩
        rw [hplace, Nat.zero_add]
  fed := by
    intro visit hvisit
    rcases List.mem_append.mp hvisit with hvisit | hvisit
    · exact (h.fed visit hvisit).mono (List.subset_append_left ..)
    · obtain rfl := List.mem_singleton.mp hvisit
      refine ⟨h.counted, fun i x hx => ?_⟩
      obtain ⟨operand, hoperand, hplace, hvalue⟩ := h.numbers i x hx
      refine ⟨operand, List.mem_append_left _ hoperand, ?_, hvalue⟩
      rw [hplace, Nat.zero_add, List.nil_append]
  chained := h.chained.append ⟨rfl, rfl⟩
  final := ⟨⟨[], node, operands.result, operands.state⟩,
    List.mem_append_right _ List.mem_cons_self, rfl, rfl⟩

end Registry

end Abacus
