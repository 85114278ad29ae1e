import Abacus.Proofs.Grammar.Trees
import Abacus.Tree.Skeleton

namespace Abacus

theorem Operator.not_isValidName_symbol (operator : Operator) :
    Registry.isValidName operator.symbol = false := by
  have hall : ∀ o ∈ Operator.all, Registry.isValidName o.symbol = false := by decide
  exact hall operator operator.mem_all

theorem Operator.symbol_ne_name (operator : Operator) {name : String}
    (hname : Registry.isValidName name = true) : operator.symbol ≠ name := by
  rintro rfl
  rw [operator.not_isValidName_symbol] at hname
  cases hname

namespace Value

variable {names names' : List String} {tree tree' : Value}

-- The trees of numbers, operations and calls, where a call has a name that a registry takes and a
-- chain of arguments with an end.
def IsExpression (tree : Value) : Prop :=
  ∃ names : List String, (∀ name ∈ names, Registry.isValidName name = true) ∧ tree.Proper names

theorem skeleton_call (name : String) (values : List Value) :
    (call name (ofArguments values)).skeleton = tuple (str name :: values.map skeleton) := by
  rw [skeleton, argumentSkeletons_eq, arguments_ofArguments]

-- Two lists of trees, where a tree of the first one is told from all others by its skeleton.
theorem eq_of_map_skeleton_eq {values values' : List Value}
    (h : ∀ value ∈ values, ∀ value' ∈ values', value.skeleton = value'.skeleton → value = value')
    (hsame : values.map skeleton = values'.map skeleton) : values = values' := by
  induction values generalizing values' with
  | nil =>
    rw [List.map_nil, eq_comm, List.map_eq_nil_iff] at hsame
    exact hsame.symm
  | cons value values ih =>
    obtain ⟨value', rest, rfl, hvalue, hrest⟩ := List.map_eq_cons_iff.mp hsame.symm
    rw [h value List.mem_cons_self value' List.mem_cons_self hvalue.symm]
    rw [ih (fun v hv v' hv' => h v (List.mem_cons_of_mem _ hv) v' (List.mem_cons_of_mem _ hv'))
      hrest.symm]

theorem Proper.eq_of_skeleton_eq (hnames : ∀ name ∈ names, Registry.isValidName name = true)
    (hnames' : ∀ name ∈ names', Registry.isValidName name = true) (h : tree.Proper names)
    (h' : tree'.Proper names') (hsame : tree.skeleton = tree'.skeleton) : tree = tree' := by
  induction h generalizing tree' with
  | number x =>
    cases h' with
    | number y =>
      rw [skeleton, skeleton, float.injEq] at hsame
      rw [hsame]
    | binary => cases hsame
    | call => cases hsame
  | binary operator _ _ ihleft ihright =>
    cases h' with
    | number => cases hsame
    | binary operator' hleft' hright' =>
      simp only [skeleton, tuple.injEq, List.cons.injEq, str.injEq, and_true] at hsame
      obtain ⟨hsymbol, hleft, hright⟩ := hsame
      rw [Operator.symbol_injective hsymbol, ihleft hleft' hleft, ihright hright' hright]
    | call hname' =>
      rw [skeleton, skeleton_call, tuple.injEq, List.cons.injEq, str.injEq] at hsame
      exact absurd hsame.1 (operator.symbol_ne_name (hnames' _ hname'))
  | @call name values hname _ ih =>
    cases h' with
    | number => cases hsame
    | binary operator' =>
      rw [skeleton, skeleton_call, tuple.injEq, List.cons.injEq, str.injEq] at hsame
      exact absurd hsame.1.symm (operator'.symbol_ne_name (hnames _ hname))
    | call _ hvalues' =>
      rw [skeleton_call, skeleton_call, tuple.injEq, List.cons.injEq, str.injEq] at hsame
      obtain ⟨rfl, hvalues⟩ := hsame
      rw [eq_of_map_skeleton_eq (fun v hv v' hv' => ih v hv (hvalues' v' hv')) hvalues]

end Value

-- Whatever the text, what is accepted is a root above an expression.
theorem Grammar.exists_expression (grammar : Grammar)
    (hnames : ∀ name ∈ grammar.names, Registry.isValidName name = true) (text name : String) :
    ∃ result, grammar.parse text name = .ok result ∧
      (result.failed = false → ∃ tree, result.value = .root tree ∧ tree.IsExpression) := by
  obtain ⟨result, hplain, hresult⟩ :=
    (grammar.plain_wholeText_reads (.whole (.of name text))).exists_pure
  refine ⟨result, grammar.parse_of_plain text name hplain, fun hok => ?_⟩
  obtain ⟨_, -, -, -, _, _, _, tree, -, -, -, hderived, hvalue⟩ := hresult hok
  have hproper : tree.Proper grammar.names := hderived.yields
  exact ⟨tree, hvalue, grammar.names, hnames, hproper⟩

namespace Value

-- Expressions with one skeleton are one expression, where doubles are one if they are identical. A
-- root adds nothing to the skeleton, and all that a grammar accepts are roots above expressions.
theorem skeletons_tell_expressions_apart :
    (∀ tree tree' : Value, tree.IsExpression → tree'.IsExpression →
      tree.skeleton = tree'.skeleton → tree = tree') ∧
      (∀ tree : Value, (root tree).skeleton = tree.skeleton) ∧
      ∀ grammar : Grammar, (∀ name ∈ grammar.names, Registry.isValidName name = true) →
        ∀ text name : String, ∃ result, grammar.parse text name = .ok result ∧
          (result.failed = false → ∃ tree, result.value = root tree ∧ tree.IsExpression) := by
  refine ⟨?_, fun tree => ?_, fun grammar hnames => grammar.exists_expression hnames⟩
  · rintro tree tree' ⟨names, hnames, h⟩ ⟨names', hnames', h'⟩ hsame
    exact h.eq_of_skeleton_eq hnames hnames' h' hsame
  · rw [skeleton]

-- The one expression with this skeleton, and a text for it.
theorem skeletons_tell_expressions_apart_for_a_difference :
    (∃! tree : Value, tree.IsExpression ∧
      tree.skeleton = tuple [str "-", float 1, tuple [str "f", float 2]]) ∧
      ∃ result tree, Grammar.parse ⟨["f"]⟩ "1 - f[2]" "" = .ok result ∧
        result.value = root tree ∧ tree.IsExpression ∧ result.value.skeleton = tree.skeleton := by
  obtain ⟨hapart, hroot, haccepted⟩ := skeletons_tell_expressions_apart
  have hnames : ∀ name ∈ ["f"], Registry.isValidName name = true := by decide
  constructor
  · have hargument : (call "f" (ofArguments [number 2])).Proper ["f"] :=
      .call List.mem_cons_self (List.forall_mem_singleton.mpr (.number 2))
    have hdifference : IsExpression (binary .subtract (number 1)
        (call "f" (ofArguments [number 2]))) :=
      ⟨["f"], hnames, .binary .subtract (.number 1) hargument⟩
    exact ⟨_, ⟨hdifference, rfl⟩, fun tree h => hapart tree _ h.1 hdifference h.2⟩
  · obtain ⟨result, hparse, hresult⟩ := haccepted ⟨["f"]⟩ hnames "1 - f[2]" ""
    have hok : result.failed = false := by
      have hfailed : (Grammar.parse ⟨["f"]⟩ "1 - f[2]" "").map Match.failed = .ok false := by
        decide +kernel
      rw [hparse] at hfailed
      exact Except.ok.inj hfailed
    obtain ⟨tree, hvalue, hexpression⟩ := hresult hok
    exact ⟨result, tree, hparse, hvalue, hexpression, by rw [hvalue, hroot]⟩

-- A function with the symbol of an operator for its name would have the skeleton of an operation.
example (left right : Value) : (call "+" (ofArguments [left, right])).skeleton =
    (binary .add left right).skeleton := rfl

end Value

end Abacus
