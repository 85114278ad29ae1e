import Abacus.Arithmetic.Total
import Abacus.Function.Registry
import Abacus.Tree.Skeleton
import Abacus.Value.Equality

namespace Abacus

-- Why a node counts as zero.
inductive Anomaly
  | unknownTag (node : Value)
  | unknownFunction (name : String)
  | failedCall (name : String) (fault : Fault)

namespace Anomaly

-- A refused number of arguments is reported in the words of the function itself.
def callFailure (name : String) : Fault → String
  | .arity function expected received =>
      "invalid call: " ++ Fault.arityText function expected received
  | fault => "invalid call: " ++ name ++ ": " ++ fault.shown

def message : Anomaly → String
  | unknownTag node => "unrecognized tag: " ++ node.shown
  | unknownFunction name => "unrecognized function: " ++ Text.quoted name
  | failedCall name fault => callFailure name fault

end Anomaly

-- The reports so far, in order, and the state that functions use.
structure Evaluation (σ : Type) where
  reports : List Anomaly := []
  state : σ

abbrev EvalM (σ : Type) := StateM (Evaluation σ)

namespace Evaluation

variable {σ : Type}

-- Reports an anomaly, which counts as zero.
def report (anomaly : Anomaly) : EvalM σ Float := do
  modify fun evaluation => { evaluation with reports := evaluation.reports ++ [anomaly] }
  return 0

-- Calls a function and takes its result for a number.
def call (name : String) (closure : Closure σ) (arguments : List Float) : EvalM σ Float := do
  let evaluation ← get
  let (result, state) := (closure arguments).run evaluation.state
  set { evaluation with state := state }
  match result.bind Value.toFloat with
  | .ok x => return x
  | .error fault => report (.failedCall name fault)

-- Every tree has a value: whatever cannot be evaluated is reported and counts as zero. Nodes are
-- visited once, from left to right.
mutual

def eval (registry : Registry σ) : Value → EvalM σ Float
  | .number x => return x
  | .root tree => eval registry tree
  | .binary operator left right => do
      let x ← eval registry left
      let y ← eval registry right
      return operator.apply x y
  | .call name args =>
      match registry.get? name with
      | none => report (.unknownFunction name)
      | some closure => do call name closure (← evalArguments registry args)
  | node => report (.unknownTag node)

def evalArguments (registry : Registry σ) : Value → EvalM σ (List Float)
  | .argument first rest => do
      let x ← eval registry first
      let xs ← evalArguments registry rest
      return x :: xs
  | _ => return []

end

end Evaluation

-- The value of a tree, the reports and the state afterwards.
def Registry.evaluate {σ : Type} (registry : Registry σ) (tree : Value) (state : σ) :
    Float × Evaluation σ :=
  (Evaluation.eval registry tree).run { state := state }

namespace Tree

-- The tags of all nodes, and those that evaluation knows.
def tags : List String :=
  ["Num"] ++ Operator.all.map Operator.symbol ++ ["func", "arg", "argend", "root"]

def evaluatedTags : List String :=
  ["Num", "root"] ++ Operator.all.map Operator.symbol ++ ["func"]

-- The keys that evaluation does not know.
def unevaluated (keys : List Value) : List Value :=
  keys.filter fun key => !evaluatedTags.any fun tag => key.same (.str tag)

end Tree

end Abacus
