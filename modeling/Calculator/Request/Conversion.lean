import Calculator.Report.Basic
import Calculator.Report.Format
import Calculator.Request.Field
import Calculator.Units.Conversion

/-!
# Requests for unit conversion

A number in one unit of a family, to be given in another one. The report names both units in full.
-/

namespace Calculator

open Json (Shape)
open Request

structure ConversionRequest where
  family : UnitFamily
  value : Float
  fromUnit : String
  toUnit : String
  format : ResponseFormat

namespace ConversionRequest

def ofArguments (args : Arguments) : Outcome ConversionRequest := do
  let family ← required Shape.choice args "unit_type"
  let value ← required Shape.float args "value"
  let fromUnit ← required Shape.string args "from_unit"
  let toUnit ← required Shape.string args "to_unit"
  let format ← orDefault .markdown Shape.choice args "response_format"
  return { family, value, fromUnit, toUnit, format }

def report (r : ConversionRequest) : Outcome Report := do
  let conversion ← r.family.convert r.value r.fromUnit r.toUnit
  return {
    operation := s!"Unit Conversion: {r.family.name}"
    result := .float conversion.value
    details := [
      ("unit_type", .string r.family.name),
      ("value", .float r.value),
      ("from_unit", .string conversion.fromUnit),
      ("to_unit", .string conversion.toUnit),
      ("base_unit", .string r.family.baseUnit)] }

end ConversionRequest

end Calculator
