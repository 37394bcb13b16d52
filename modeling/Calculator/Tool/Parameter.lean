import Calculator.Choice
import Calculator.Json.Basic

/-!
# Parameters and their schema

A tool tells its callers which fields it takes: the type of each, whether it must be given, and what
it is for. The description as a JSON schema follows from the parameters alone.
-/

namespace Calculator

structure ChoiceDescription where
  title : String
  about : String
  options : List (String × Option String)

def ChoiceDescription.of (α : Type) [Choice α] (title about : String) (note : α → Option String) :
    ChoiceDescription :=
  ⟨title, about, (Choice.all : List α).map fun a => (Choice.name a, note a)⟩

inductive ParameterType where
  | number
  | natural (greatest : Nat)
  | switch
  | text
  | numbers
  | texts
  | choice (c : ChoiceDescription)

inductive Presence where
  | required
  | nullable
  | default (v : Json)

structure Parameter where
  name : String
  type : ParameterType
  presence : Presence
  about : String

namespace Json

def natural (n : Nat) : Json := .whole (.ofNat n)

end Json

namespace ChoiceDescription

def isPlain (c : ChoiceDescription) : Bool :=
  c.options.all fun (_, note) => note.isNone

def plainNames (c : ChoiceDescription) : List Json :=
  c.options.filterMap fun (name, note) => if note.isNone then some (.string name) else none

def notedSchema (name note : String) : Json :=
  .ofMembers [("const", .string name), ("description", .string note), ("type", .string "string")]

def alternatives (c : ChoiceDescription) : List Json :=
  let noted := c.options.filterMap fun (name, note) => note.map (notedSchema name)
  match c.plainNames with
  | [] => noted
  | names => .ofMembers [("enum", .array names), ("type", .string "string")] :: noted

def schema (c : ChoiceDescription) : Json :=
  if c.isPlain then
    .ofMembers [("description", .string c.about), ("enum", .array c.plainNames),
      ("type", .string "string")]
  else .ofMembers [("description", .string c.about), ("oneOf", .array c.alternatives)]

end ChoiceDescription

namespace ParameterType

def doubleSchema : List (String × Json) :=
  [("format", .string "double"), ("type", .string "number")]

def schemaMembers : ParameterType → List (String × Json)
  | .number => doubleSchema
  | .natural greatest =>
    [("format", .string "uint32"), ("maximum", .natural greatest), ("minimum", .natural 0),
      ("type", .string "integer")]
  | .switch => [("type", .string "boolean")]
  | .text => [("type", .string "string")]
  | .numbers => [("items", .ofMembers doubleSchema), ("type", .string "array")]
  | .texts => [("items", .ofMembers [("type", .string "string")]), ("type", .string "array")]
  | .choice c => [("$ref", .string ("#/$defs/" ++ c.title))]

end ParameterType

def Presence.schemaMembers : Presence → List (String × Json)
  | .required => []
  | .nullable => [("default", .null), ("nullable", .bool true)]
  | .default v => [("default", v)]

namespace Parameter

def schema (p : Parameter) : Json :=
  .ofMembers (("description", .string p.about) :: p.type.schemaMembers ++ p.presence.schemaMembers)

def isRequired (p : Parameter) : Bool :=
  match p.presence with
  | .required => true
  | _ => false

def definition? (p : Parameter) : Option (String × Json) :=
  match p.type with
  | .choice c => some (c.title, c.schema)
  | _ => none

def objectSchema (title about : String) (parameters : List Parameter) : Json :=
  .ofMembers [
    ("$defs", .ofMembers (parameters.filterMap definition?)),
    ("$schema", .string "https://json-schema.org/draft/2020-12/schema"),
    ("description", .string about),
    ("properties", .ofMembers (parameters.map fun p => (p.name, p.schema))),
    ("required", .array ((parameters.filter isRequired).map fun p => .string p.name)),
    ("title", .string title),
    ("type", .string "object")]

end Parameter

end Calculator
