import Calculator.Hashing.Expected
import Calculator.Hashing.Outcome
import Calculator.Report.Basic
import Calculator.Report.Format
import Calculator.Request.Field

/-!
# Requests for a digest

The digest of one input, reported alone or compared with an expected one. Blanks around the input
are dropped, also those around a text.
-/

namespace Calculator

open Json (Shape)
open Request

structure HashMethod where
  algorithm : Algorithm
  inputType : InputType
  normalization : Normalization

namespace HashMethod

def details (m : HashMethod) : Report.Details :=
  [("algorithm", .string m.algorithm.name),
    ("input_type", .string m.inputType.name),
    ("normalization", .string m.normalization.name)]

def hash (m : HashMethod) (settings : Settings) (tree : FileTree) (field input : String) :
    Outcome HashOutcome := do
  let source ← HashSource.ofInput settings tree field m.inputType input
  source.hash tree m.algorithm m.normalization

end HashMethod

def HashOutcome.details (o : HashOutcome) : Report.Details :=
  [("input_size_bytes", .size o.inputSize), ("normalized_size_bytes", .size o.normalizedSize)] ++
  match o.file with
  | some (path, size) => [("file_path", .string path), ("file_size", .size size)]
  | none => []

structure HashRequest where
  method : HashMethod
  input : String
  format : ResponseFormat

namespace HashRequest

def ofArguments (args : Arguments) : Outcome HashRequest := do
  let algorithm ← required Shape.choice args "algorithm"
  let inputType ← required Shape.choice args "input_type"
  let input ← required Shape.string args "input_data"
  let normalization ← orDefault .none Shape.choice args "normalization"
  let format ← orDefault .markdown Shape.choice args "response_format"
  return { method := { algorithm, inputType, normalization }, input := Text.trim input, format }

def outcome (settings : Settings) (tree : FileTree) (r : HashRequest) : Outcome HashOutcome :=
  r.method.hash settings tree "input_data" r.input

def report (settings : Settings) (tree : FileTree) (r : HashRequest) : Outcome Report := do
  let o ← r.outcome settings tree
  return {
    operation := s!"Hash Calculation: {r.method.algorithm.name}"
    result := .string o.digest
    details := r.method.details ++ o.details }

end HashRequest

structure ComparisonRequest where
  hash : HashRequest
  expected : String

namespace ComparisonRequest

/-- That an expected digest is given as text is checked before the other fields, and its form after
the input. -/
def ofArguments (args : Arguments) : Outcome ComparisonRequest := do
  let given ← required Shape.string args "expected_hash"
  let algorithm ← required Shape.choice args "algorithm"
  let inputType ← required Shape.choice args "input_type"
  let input ← required Shape.string args "input_data"
  let expected ← expectedHash given
  let normalization ← orDefault .none Shape.choice args "normalization"
  let format ← orDefault .markdown Shape.choice args "response_format"
  return {
    hash := { method := { algorithm, inputType, normalization }, input := Text.trim input, format }
    expected }

def verdict (isMatch : Bool) : String :=
  if isMatch then "✓ MATCH" else "✗ MISMATCH"

def report (settings : Settings) (tree : FileTree) (r : ComparisonRequest) : Outcome Report := do
  let o ← r.hash.outcome settings tree
  let isMatch := digestsMatch o.digest r.expected
  return {
    operation := s!"Hash Comparison: {r.hash.method.algorithm.name}"
    result := .map [
      ("match", .bool isMatch),
      ("calculated_hash", .string o.digest),
      ("expected_hash", .string r.expected)]
    details := r.hash.method.details ++ [
      ("calculated_hash", .string o.digest),
      ("expected_hash", .string r.expected),
      ("match", .bool isMatch)] ++ o.details
    verdict := some (verdict isMatch) }

end ComparisonRequest

end Calculator
