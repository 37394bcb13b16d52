import Calculator.Report.Basic
import Calculator.Report.Format
import Calculator.Request.Field
import Calculator.Statistics

/-!
# Requests for statistics

One statistic of a list of numbers, or a summary of all. The report repeats the numbers.
-/

namespace Calculator

open Json (Shape)
open Request

structure StatisticsRequest where
  operation : StatisticsOperation
  values : List Float
  format : ResponseFormat

namespace StatisticsRequest

def ofArguments (args : Arguments) : Outcome StatisticsRequest := do
  let operation ← required Shape.choice args "operation"
  let values ← required (Shape.list Shape.float) args "values"
  let format ← orDefault .markdown Shape.choice args "response_format"
  return { operation, values, format }

def ifAny (key : String) (x : Option Float) : Report.Details :=
  x.toList.map fun x => (key, .float x)

def summaryDetails (s : Statistics.Summary) : Report.Details :=
  [("count", .size s.count),
    ("mean", .float s.mean),
    ("median", .float s.median),
    ("min", .float s.min),
    ("max", .float s.max),
    ("range", .float s.range),
    ("sum", .float s.sum)] ++ ifAny "stdev" s.stdev ++ ifAny "variance" s.variance

def answerField : StatisticsOperation.Answer → Report.Field
  | .value x => .float x
  | .summary s => .map (summaryDetails s)

def details (r : StatisticsRequest) : Report.Details :=
  [("operation", .string r.operation.name),
    ("count", .size r.values.length),
    ("values", .floats r.values)] ++
  r.operation.method.toList.map fun method => ("method", .string method)

def report (r : StatisticsRequest) : Outcome Report := do
  let answer ← r.operation.evaluate r.values
  return {
    operation := s!"Statistics: {r.operation.name}"
    result := answerField answer
    details := r.details }

end StatisticsRequest

end Calculator
