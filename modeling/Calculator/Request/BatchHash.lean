import Calculator.Request.Hash

/-!
# Requests for the digests of a list

Every input is checked and hashed for itself, in order, and as it is given. An input that fails has
an error in place of its digest, and the report counts both kinds.
-/

namespace Calculator

open Json (Shape)
open Request

structure BatchRequest where
  method : HashMethod
  inputs : List String
  format : ResponseFormat

namespace BatchRequest

def ofArguments (args : Arguments) : Outcome BatchRequest := do
  let algorithm ← required Shape.choice args "algorithm"
  let inputType ← required Shape.choice args "input_type"
  let inputs ← required (Shape.list Shape.string) args "input_list"
  let normalization ← orDefault .none Shape.choice args "normalization"
  let format ← orDefault .markdown Shape.choice args "response_format"
  return { method := { algorithm, inputType, normalization }, inputs, format }

def fieldAt (index : Nat) : String :=
  s!"input_list[{index}]"

def sources (settings : Settings) (tree : FileTree) (r : BatchRequest) :
    List (String × Outcome HashSource) :=
  r.inputs.zipIdx.map fun (input, index) =>
    (input, HashSource.ofInput settings tree (fieldAt index) r.method.inputType input)

def items (settings : Settings) (tree : FileTree) (r : BatchRequest) : List BatchItem :=
  hashBatch tree r.method.algorithm r.method.normalization (r.sources settings tree)

def resultEntry (item : BatchItem) : Report.Field :=
  .map (("input", .string item.input) ::
    match item.outcome with
    | .ok o => ("hash", .string o.digest) :: o.file.toList.map fun (_, size) =>
        ("file_size", .size size)
    | .error failure => [("error", .string failure.message)])

def inputEntry (item : BatchItem) : Report.Field :=
  .map (("input", .string item.input) ::
    match item.outcome with
    | .ok o => o.details
    | .error failure => [("error", .string failure.message)])

def isFailed (item : BatchItem) : Bool :=
  match item.outcome with
  | .ok _ => false
  | .error _ => true

def report (settings : Settings) (tree : FileTree) (r : BatchRequest) : Outcome Report := do
  settings.limits.checkBatch r.inputs.length
  let items := r.items settings tree
  let failed := items.countP isFailed
  return {
    operation := s!"Batch Hash Calculation: {r.method.algorithm.name}"
    result := .list (items.map resultEntry)
    details := r.method.details ++ [
      ("total_inputs", .size items.length),
      ("succeeded", .size (items.length - failed)),
      ("failed", .size failed),
      ("inputs", .list (items.map inputEntry))] }

end BatchRequest

end Calculator
