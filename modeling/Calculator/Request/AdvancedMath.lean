import Calculator.Elementary
import Calculator.Report.Basic
import Calculator.Report.Format
import Calculator.Request.Field

/-!
# Requests for powers, roots, rounding and logarithms

One operation on one number. A power needs an exponent, and the number of decimals is limited
whatever the operation is; other operations ignore both.
-/

namespace Calculator

open Json (Shape)
open Request

structure AdvancedMathRequest where
  operation : AdvancedOperation
  value : Float
  exponent : Option Float
  decimals : Option UInt32
  format : ResponseFormat

namespace AdvancedMathRequest

def check (r : AdvancedMathRequest) : Outcome Unit :=
  if r.operation = .power ∧ r.exponent.isNone then .error (.validation "exponent" .neededForPower)
  else if r.decimals.any fun d => maxDecimals < d.toNat then
    .error (.validation "decimals" .decimalsInRange)
  else .ok ()

def ofArguments (args : Arguments) : Outcome AdvancedMathRequest := do
  let operation ← required Shape.choice args "operation"
  let value ← required Shape.float args "value"
  let exponent ← optional Shape.float args "exponent"
  let decimals ← optional Shape.uint32 args "decimals"
  let format ← orDefault .markdown Shape.choice args "response_format"
  let r : AdvancedMathRequest := { operation, value, exponent, decimals, format }
  check r
  return r

def places (r : AdvancedMathRequest) : Nat :=
  (r.decimals.getD 0).toNat

def extraDetails (r : AdvancedMathRequest) : Report.Details :=
  match r.operation with
  | .power => r.exponent.toList.map fun e => ("exponent", .float e)
  | .round => [("decimals", .size r.places)]
  | _ => []

def report (r : AdvancedMathRequest) : Outcome Report := do
  let result ← r.operation.apply r.value r.exponent r.places
  return {
    operation := s!"Advanced Math: {r.operation.name}"
    result := .float result
    details := [("operation", .string r.operation.name), ("value", .float r.value)] ++
      r.extraDetails }

end AdvancedMathRequest

end Calculator
