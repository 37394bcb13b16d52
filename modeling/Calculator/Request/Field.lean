import Calculator.Failure
import Calculator.Json.Shape

/-!
# Reading fields of a request

A request is given by named fields. A field that is null counts as absent, and what is wrong with a
field is told together with its name.
-/

namespace Calculator.Request

open Json (Shape)

abbrev Arguments := List (String × Json)

def Arguments.get? (args : Arguments) (field : String) : Option Json :=
  match args.find? (·.1 == field) with
  | some (_, v) => if v.isNull then none else some v
  | none => none

def optional {α : Type} (shape : Shape α) (args : Arguments) (field : String) :
    Outcome (Option α) :=
  match args.get? field with
  | none => .ok none
  | some v =>
    match shape v with
    | .ok a => .ok (some a)
    | .error m => .error (.validation field (.mismatch m))

def required {α : Type} (shape : Shape α) (args : Arguments) (field : String) : Outcome α := do
  match ← optional shape args field with
  | some a => .ok a
  | none => .error (.validation field .required)

def orDefault {α : Type} (default : α) (shape : Shape α) (args : Arguments)
    (field : String) : Outcome α := do
  return (← optional shape args field).getD default

theorem optional_congr {α : Type} (shape : Shape α) {args args' : Arguments} {field : String}
    (h : args.get? field = args'.get? field) : optional shape args field =
      optional shape args' field := by
  simp [optional, h]

theorem required_congr {α : Type} (shape : Shape α) {args args' : Arguments} {field : String}
    (h : args.get? field = args'.get? field) : required shape args field =
      required shape args' field := by
  simp [required, optional_congr shape h]

theorem orDefault_congr {α : Type} (default : α) (shape : Shape α) {args args' : Arguments}
    {field : String} (h : args.get? field = args'.get? field) :
    orDefault default shape args field = orDefault default shape args' field := by
  simp [orDefault, optional_congr shape h]

end Calculator.Request
