import Abacus.Tree.Evaluation
import Mathlib.Data.List.Basic

namespace Abacus

namespace Value

-- What is no argument ends a chain.
theorem arguments_eq_nil {args : Value} (h : ∀ first rest, args = argument first rest → False) :
    args.arguments = [] := by
  rw [arguments]
  exact h

-- A chain with other arguments. What ends the chain stays.
def withArguments : Value → List Value → Value
  | argument _ rest, value :: values => argument value (rest.withArguments values)
  | value, _ => value

theorem arguments_withArguments {args : Value} {values : List Value}
    (h : values.length = args.arguments.length) :
    (args.withArguments values).arguments = values := by
  induction args using arguments.induct generalizing values with
  | case1 first rest ih =>
    cases values with
    | nil => cases h
    | cons value values =>
      rw [withArguments, arguments, ih (Nat.succ.inj h)]
  | case2 args hchain =>
    have hnil := arguments_eq_nil hchain
    rw [hnil, List.length_nil, List.length_eq_zero_iff] at h
    subst h
    have hsame : args.withArguments [] = args := by
      cases args <;> rfl
    rw [hsame, hnil]

-- The values right below a node, from left to right.
def children : Value → List Value
  | root tree => [tree]
  | binary _ left right => [left, right]
  | call _ args => args.arguments
  | argument first rest => [first, rest]
  | pair left right => [left, right]
  | list items => items
  | tuple items => items
  | _ => []

-- The node with as many other values below it.
def withChildren : Value → List Value → Value
  | root _, [tree] => root tree
  | binary operator _ _, [left, right] => binary operator left right
  | call name args, values => call name (args.withArguments values)
  | argument _ _, [first, rest] => argument first rest
  | pair _ _, [left, right] => pair left right
  | list _, items => list items
  | tuple _, items => tuple items
  | node, _ => node

theorem children_withChildren {node : Value} {values : List Value}
    (h : values.length = node.children.length) : (node.withChildren values).children = values := by
  cases node with
  | root tree =>
    obtain ⟨value, rfl⟩ := List.length_eq_one_iff.mp h
    rfl
  | binary operator left right =>
    obtain ⟨x, y, rfl⟩ := List.length_eq_two.mp h
    rfl
  | call name args => exact arguments_withArguments h
  | argument first rest =>
    obtain ⟨x, y, rfl⟩ := List.length_eq_two.mp h
    rfl
  | pair left right =>
    obtain ⟨x, y, rfl⟩ := List.length_eq_two.mp h
    rfl
  | list items => rfl
  | tuple items => rfl
  | _ =>
    rw [List.length_eq_zero_iff.mp h]
    rfl

end Value

-- The way from the root down to a value, by the numbers of the children.
abbrev Place := List Nat

namespace Place

-- What is below a node comes before it, and what is below one child before what is below the next.
inductive Before : Place → Place → Prop
  | inside (i : Nat) (place : Place) : Before (i :: place) []
  | left {i j : Nat} (place other : Place) : i < j → Before (i :: place) (j :: other)
  | under (i : Nat) {place other : Place} : Before place other → Before (i :: place) (i :: other)

-- No place comes before itself, so a list in this order holds no place twice.
theorem Before.irrefl (place : Place) : ¬Before place place := by
  intro h
  induction place with
  | nil => cases h
  | cons i place ih =>
    cases h with
    | left _ _ hlt => exact Nat.lt_irrefl i hlt
    | under _ h => exact ih h

end Place

-- The tree with another value at a place. A place outside the tree leaves it as it is.
def Value.replaceAt : Value → Place → Value → Value
  | _, [], new => new
  | node, i :: place, new =>
      match node.children[i]? with
      | none => node
      | some child => node.withChildren (node.children.set i (child.replaceAt place new))

namespace Registry

variable {σ : Type} (registry : Registry σ)

-- Whether evaluation goes on below a node.
def opens : Value → Bool
  | .root _ => true
  | .binary .. => true
  | .call name _ => (registry.get? name).isSome
  | _ => false

-- The nodes whose numbers a node needs.
def operandNodes (node : Value) : List Value := if registry.opens node then node.children else []

inductive Reaches : Value → Place → Value → Prop
  | here (tree : Value) : Reaches tree [] tree
  | further {tree operand node : Value} {i : Nat} {place : Place} :
      (registry.operandNodes tree)[i]? = some operand → Reaches operand place node →
      Reaches tree (i :: place) node

variable {registry}

theorem sizeOf_lt_of_mem_arguments {value args : Value} (h : value ∈ args.arguments) :
    sizeOf value < sizeOf args := by
  induction args using Value.arguments.induct with
  | case1 first rest ih =>
    rw [Value.arguments, List.mem_cons] at h
    rw [Value.argument.sizeOf_spec]
    rcases h with rfl | h
    · omega
    · have := ih h
      omega
  | case2 args hchain =>
    rw [Value.arguments_eq_nil hchain] at h
    cases h

theorem sizeOf_lt_of_mem_operandNodes {operand node : Value}
    (h : operand ∈ registry.operandNodes node) : sizeOf operand < sizeOf node := by
  unfold operandNodes at h
  split at h
  · next hopens =>
    cases node with
    | root tree =>
      rw [List.mem_singleton.mp h, Value.root.sizeOf_spec]
      omega
    | binary operator left right =>
      rw [Value.binary.sizeOf_spec]
      rcases List.mem_pair.mp h with rfl | rfl <;> omega
    | call name args =>
      have hlt := sizeOf_lt_of_mem_arguments h
      rw [Value.call.sizeOf_spec]
      omega
    | _ => cases hopens
  · cases h

theorem opens_withChildren (node : Value) (values : List Value) :
    registry.opens (node.withChildren values) = registry.opens node := by
  unfold Value.withChildren
  split <;> rfl

theorem operandNodes_withChildren {node : Value} {values : List Value}
    (hopens : registry.opens node = true) (h : values.length = node.children.length) :
    registry.operandNodes (node.withChildren values) = values := by
  rw [operandNodes, opens_withChildren, if_pos hopens, Value.children_withChildren h]

-- Replacing something in an operand leaves the node open, with another operand in that place.
theorem exists_replaceAt {node operand : Value} {i : Nat}
    (h : (registry.operandNodes node)[i]? = some operand) (place : Place) (new : Value) :
    ∃ values, registry.opens node = true ∧
      node.replaceAt (i :: place) new = node.withChildren values ∧
      registry.operandNodes (node.withChildren values) =
        (registry.operandNodes node).set i (operand.replaceAt place new) := by
  cases hopens : registry.opens node with
  | false => simp [operandNodes, hopens] at h
  | true =>
    have hchildren : registry.operandNodes node = node.children := if_pos hopens
    rw [hchildren] at h
    refine ⟨node.children.set i (operand.replaceAt place new), rfl, ?_, ?_⟩
    · rw [Value.replaceAt, h]
    · rw [operandNodes_withChildren hopens (List.length_set ..), hchildren]

theorem Reaches.replaceAt {tree node : Value} {place : Place} (h : registry.Reaches tree place node)
    (new : Value) : registry.Reaches (tree.replaceAt place new) place new := by
  induction h with
  | here tree => exact .here new
  | @further tree operand node i place hoperand _ ih =>
    obtain ⟨values, -, hreplace, hnodes⟩ := exists_replaceAt hoperand place new
    obtain ⟨hlt, -⟩ := List.getElem?_eq_some_iff.mp hoperand
    rw [hreplace]
    refine .further ?_ ih
    rw [hnodes, List.getElem?_set_self hlt]

end Registry

end Abacus
