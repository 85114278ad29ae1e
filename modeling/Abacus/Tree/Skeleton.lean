import Abacus.Value.Basic

namespace Abacus.Value

-- The argument chain that holds the given values.
def ofArguments : List Value → Value
  | [] => noArguments
  | value :: rest => argument value (ofArguments rest)

-- The values of an argument chain, up to whatever ends it.
def arguments : Value → List Value
  | argument first rest => first :: rest.arguments
  | _ => []

mutual

-- Numbers for numbers, and a tuple for each operation or call. What is no node stays as it is.
def skeleton : Value → Value
  | number x => float x
  | binary operator left right => tuple [str operator.symbol, left.skeleton, right.skeleton]
  | call name args => tuple (str name :: args.argumentSkeletons)
  | root tree => tree.skeleton
  | argument first rest => tuple [str "arg", first.skeleton, rest.skeleton]
  | noArguments => tuple [str "argend"]
  | value => value

def argumentSkeletons : Value → List Value
  | argument first rest => first.skeleton :: rest.argumentSkeletons
  | _ => []

end

@[simp]
theorem arguments_ofArguments (values : List Value) : (ofArguments values).arguments = values := by
  induction values with
  | nil => rfl
  | cons value rest ih => simp [ofArguments, arguments, ih]

theorem argumentSkeletons_eq (args : Value) :
    args.argumentSkeletons = args.arguments.map skeleton := by
  induction args using arguments.induct with
  | case1 first rest ih => simp [argumentSkeletons, arguments, ih]
  | case2 args h =>
    cases args with
    | argument first rest => exact absurd rfl (h first rest)
    | _ => rfl

end Abacus.Value
