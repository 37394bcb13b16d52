import Calculator.Report.Basic
import Calculator.Report.Format
import Calculator.Request.Field
import Calculator.Trigonometry

/-!
# Requests for trigonometric functions

A function of an angle, or an angle from a ratio. The report says in which unit the angle is.
-/

namespace Calculator

open Json (Shape)
open Request

structure TrigonometryRequest where
  operation : TrigOperation
  angle : Float
  useRadians : Bool
  format : ResponseFormat

namespace TrigonometryRequest

def ofArguments (args : Arguments) : Outcome TrigonometryRequest := do
  let operation ← required Shape.choice args "operation"
  let angle ← required Shape.float args "angle"
  let useRadians ← orDefault false Shape.bool args "use_radians"
  let format ← orDefault .markdown Shape.choice args "response_format"
  return { operation, angle, useRadians, format }

def unit (r : TrigonometryRequest) : String :=
  if r.useRadians then "radians" else "degrees"

def details (r : TrigonometryRequest) : Report.Details :=
  let inverse := r.operation.isInverse
  [("operation", .string r.operation.name),
    (if inverse then "input" else "angle", .float r.angle),
    ("use_radians", .bool r.useRadians),
    (if inverse then "output_unit" else "input_unit", .string r.unit)]

def report (r : TrigonometryRequest) : Outcome Report := do
  let result ← r.operation.evaluate r.angle r.useRadians
  return {
    operation := s!"Trigonometric: {r.operation.name}"
    result := .float result
    details := r.details }

end TrigonometryRequest

end Calculator
