import Calculator.Choice
import Calculator.Json.Fault

/-!
# Shapes of values

What a value is read as: a number, a whole number of some width, a switch, a text, a choice by name,
or a list. A value of any other shape is a mismatch, and a list fails with its first item that does.
-/

namespace Calculator.Json

abbrev Shape (α : Type) := Json → Except Mismatch α

namespace Shape

def unexpected {α : Type} (v : Json) (expected : String) : Except Mismatch α :=
  .error (.kind (found v) expected)

def floatOfWhole (n : Whole) : Float :=
  Binary64.floatOfRatio (n.val < 0) n.val.natAbs 1

def float : Shape Float
  | .whole n => .ok (floatOfWhole n)
  | .float x => .ok x
  | v => unexpected v "f64"

def natural (bound : Nat) (expected : String) : Shape Nat
  | .whole n =>
    if 0 ≤ n.val ∧ n.val < bound then .ok n.val.toNat
    else .error (.value (.whole n.val) expected)
  | v => unexpected v expected

def uint16 : Shape UInt16 := fun v => UInt16.ofNat <$> natural UInt16.size "u16" v

def uint32 : Shape UInt32 := fun v => UInt32.ofNat <$> natural UInt32.size "u32" v

def uint64 : Shape UInt64 := fun v => UInt64.ofNat <$> natural UInt64.size "u64" v

def size : Shape UInt64 := fun v => UInt64.ofNat <$> natural UInt64.size "usize" v

def bool : Shape Bool
  | .bool b => .ok b
  | v => unexpected v "a boolean"

def text (expected : String) : Shape String
  | .string s => .ok s
  | v => unexpected v expected

def string : Shape String := text "a string"

def nullable {α : Type} (shape : Shape α) : Shape (Option α)
  | .null => .ok none
  | v => some <$> shape v

def items {α : Type} (shape : Shape α) : List Json → Except Mismatch (List α)
  | [] => .ok []
  | v :: rest => do
    let first ← shape v
    let others ← items shape rest
    return first :: others

def list {α : Type} (shape : Shape α) : Shape (List α)
  | .array vs => items shape vs
  | v => unexpected v "a sequence"

def choiceOfName {α : Type} [Choice α] (name : String) : Except Mismatch α :=
  match Choice.ofName? name with
  | some a => .ok a
  | none => .error (.unknownName name (Choice.names α))

theorem choiceOfName_name {α : Type} [Choice α] (a : α) : choiceOfName (Choice.name a) = .ok a := by
  simp [choiceOfName, Choice.ofName?_name]

def choice {α : Type} [Choice α] : Shape α
  | .string name => choiceOfName name
  | .object [(name, v)] => do
    let a ← choiceOfName name
    if v.isNull then .ok a else unexpected v "unit"
  | .object _ => .error (.value .map "map with a single key")
  | v => unexpected v "string or map"

end Shape

end Calculator.Json
