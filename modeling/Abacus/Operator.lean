import Abacus.Fault

namespace Abacus

inductive Operator
  | add
  | subtract
  | multiply
  | divide
  | modulo
  | power
deriving DecidableEq, Repr

namespace Operator

-- In the order in which the grammar tries them.
def all : List Operator := [add, subtract, multiply, divide, modulo, power]

def symbol : Operator → String
  | add => "+"
  | subtract => "-"
  | multiply => "*"
  | divide => "/"
  | modulo => "%"
  | power => "^"

-- Every way of writing an operator.
def spellings : Operator → List String
  | add => ["+", "plus"]
  | subtract => ["-", "minus"]
  | multiply => ["*", "@", "times"]
  | divide => ["/", "div"]
  | modulo => ["%", "mod"]
  | power => ["^", "**"]

def ofSymbol (tag : String) : Except Fault Operator :=
  match all.find? (·.symbol = tag) with
  | some operator => .ok operator
  | none => .error (.unknownOperator tag)

theorem mem_all (operator : Operator) : operator ∈ all := by cases operator <;> decide

theorem symbol_injective : Function.Injective symbol := by
  intro left right h
  cases left <;> cases right <;> simp_all [symbol]

theorem ofSymbol_symbol (operator : Operator) : ofSymbol operator.symbol = .ok operator := by
  cases operator <;> rfl

end Operator

end Abacus
