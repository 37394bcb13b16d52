import Calculator.Arithmetic
import Calculator.Report.Basic
import Calculator.Report.Format
import Calculator.Request.Field

/-!
# Requests for arithmetic

One of the four operations on two numbers. The report repeats the numbers and writes the expression
out.
-/

namespace Calculator

open Json (Shape)
open Request

structure ArithmeticRequest where
  operation : BasicOperation
  a : Float
  b : Float
  format : ResponseFormat

namespace ArithmeticRequest

def ofArguments (args : Arguments) : Outcome ArithmeticRequest := do
  let operation ← required Shape.choice args "operation"
  let a ← required Shape.float args "a"
  let b ← required Shape.float args "b"
  let format ← orDefault .markdown Shape.choice args "response_format"
  return { operation, a, b, format }

def expression (r : ArithmeticRequest) : String :=
  s!"{sentenceText r.a} {r.operation.symbol} {sentenceText r.b}"

def report (r : ArithmeticRequest) : Outcome Report := do
  let result ← r.operation.apply r.a r.b
  return {
    operation := s!"Basic Operation: {r.operation.name}"
    result := .float result
    details := [
      ("operation", .string r.operation.name),
      ("a", .float r.a),
      ("b", .float r.b),
      ("expression", .string r.expression)] }

end ArithmeticRequest

end Calculator
