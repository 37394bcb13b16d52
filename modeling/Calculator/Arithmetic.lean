import Calculator.Choice
import Calculator.Failure

/-!
# Arithmetic on two numbers

The four operations. A divisor of zero is refused, and so is a result that is no finite number.
-/

namespace Calculator

inductive BasicOperation where
  | add
  | subtract
  | multiply
  | divide
deriving DecidableEq, Repr

namespace BasicOperation

def all : List BasicOperation :=
  [.add, .subtract, .multiply, .divide]

def name : BasicOperation → String
  | .add => "add"
  | .subtract => "subtract"
  | .multiply => "multiply"
  | .divide => "divide"

instance : Choice BasicOperation where
  all := all
  name := name
  mem_all := by intro a; cases a <;> decide
  nodup_names := by decide

def symbol : BasicOperation → String
  | .add => "+"
  | .subtract => "-"
  | .multiply => "×"
  | .divide => "÷"

def compute (op : BasicOperation) (a b : Float) : Outcome Float :=
  match op with
  | .add => .ok (a + b)
  | .subtract => .ok (a - b)
  | .multiply => .ok (a * b)
  | .divide => if b == 0 then .error .divisionByZero else .ok (a / b)

def apply (op : BasicOperation) (a b : Float) : Outcome Float := do
  finite (← op.compute a b) op.name

end BasicOperation

end Calculator
