import Calculator.Json.Reader
import Calculator.Json.Shape
import Calculator.Json.Skip

/-!
# Reading records

A record is written as an object whose members are its fields, in any order, or as the list of its
fields in their own order. It is read straight from the text, so of several faults the first one in
the text counts. A member that is no field is skipped, and a field must not be given twice.

What is wrong with a value is told at the end of the value, what is wrong with a record as a whole
at the end of the record.
-/

namespace Calculator.Json

def mismatchAt {α : Type} (cs : List Char) (m : Mismatch) : Except Fault α :=
  faultAt cs (.mismatch m)

def readShape {α : Type} (shape : Shape α) (fuel : Nat) : Read α := fun cs =>
  match skipSpace cs with
  | [] => faultAt [] .endInValue
  | c :: rest =>
    let whole := if c = '[' then some (.array []) else if c = '\x7b' then
      some (.object []) else none
    match whole with
    | some v =>
      match shape v with
      | .ok a => .ok (a, c :: rest)
      | .error m => mismatchAt (c :: rest) m
    | none => do
      let (v, rest) ← readScalar fuel c rest
      match shape v with
      | .ok a => .ok (a, rest)
      | .error m => mismatchAt rest m

/-- A field of a record that is filled in step by step. Reading may find a mismatch that has no
place of its own. -/
structure RecordField (σ : Type) where
  name : String
  isRead : σ → Bool
  read : σ → Read (Except Mismatch σ)

structure RecordShape (σ α : Type) where
  name : String
  fields : List (RecordField σ)
  spare : List String := []
  start : σ
  build : σ → Except Mismatch α

def given {α : Type} (name : String) : Option α → Except Mismatch α
  | some a => .ok a
  | none => .error (.missingField name)

def afterObject (cs : List Char) : List Char :=
  match skipSpace cs with
  | c :: rest => if c = '\x7d' then rest else c :: rest
  | [] => []

def afterElement (cs : List Char) : List Char :=
  match skipSpace cs with
  | c :: rest => if c = ']' then rest else if c = ',' then skipSpace rest else c :: rest
  | [] => []

/-- Tells a mismatch that has no place of its own behind what comes `after` the value. -/
def settle {α : Type} (after : List Char → List Char) : Except Mismatch α × List Char →
    Except Fault (α × List Char)
  | (.ok a, rest) => .ok (a, rest)
  | (.error m, rest) => mismatchAt (after rest) m

def readField {σ : Type} (fields : List (RecordField σ)) (state : σ)
    (key : String) : Read σ := fun cs =>
  match fields.find? (·.name == key) with
  | none => do
    let ((), cs) ← readColon cs
    return (state, ← skipValue cs)
  | some field =>
    if field.isRead state then mismatchAt (afterObject cs) (.duplicateField key)
    else do
      let ((), cs) ← readColon cs
      settle afterObject (← field.read state cs)

def readListEnd : Read Unit := fun cs =>
  match skipSpace cs with
  | [] => faultAt [] .endInList
  | c :: rest =>
    if c = ']' then .ok ((), rest)
    else if c = ',' then
      match skipSpace rest with
      | [] => faultAt [] .trailingCharacters
      | d :: rest =>
        if d = ']' then faultIn (d :: rest) .trailingComma else
          faultIn (d :: rest) .trailingCharacters
    else faultIn (c :: rest) .trailingCharacters

def lengthText (name : String) (n : Nat) : String :=
  let plural := if n = 1 then "" else "s"
  s!"{name} with {n} element{plural}"

def readElements {σ : Type} (expected : String) (spare : List String) :
    List (RecordField σ) → (index : Nat) → σ → Read σ
  | [], _, state, cs => do
    let ((), rest) ← readListEnd cs
    return (state, rest)
  | field :: fields, index, state, cs =>
    match skipSpace cs with
    | [] => faultAt [] .endInList
    | c :: rest =>
      if c = ']' then
        let left := (field :: fields).takeWhile (spare.contains ·.name)
        if left.length = fields.length + 1 then .ok (state, rest)
        else mismatchAt rest (.length (index + left.length) expected)
      else if index = 0 then do
        let (state, rest) ← settle afterElement (← field.read state (c :: rest))
        readElements expected spare fields (index + 1) state rest
      else if c = ',' then
        match skipSpace rest with
        | [] => faultAt [] .endInValue
        | d :: rest =>
          if d = ']' then faultIn (d :: rest) .trailingComma
          else do
            let (state, rest) ← settle afterElement (← field.read state (d :: rest))
            readElements expected spare fields (index + 1) state rest
      else faultIn (c :: rest) .expectedListCommaOrEnd

def RecordShape.finish {σ α : Type} (shape : RecordShape σ α) (state : σ) : Read α := fun rest =>
  match shape.build state with
  | .ok a => .ok (a, rest)
  | .error m => mismatchAt rest m

def readRecord {σ α : Type} (shape : RecordShape σ α) (fuel : Nat) : Read α := fun cs =>
  match skipSpace cs with
  | [] => faultAt [] .endInValue
  | c :: rest =>
    if c = '\x7b' then do
      let (state, rest) ← readMembers (readField shape.fields) fuel true shape.start rest
      shape.finish state rest
    else if c = '[' then do
      let (state, rest) ←
        readElements (lengthText shape.name shape.fields.length)
          shape.spare shape.fields 0 shape.start rest
      shape.finish state rest
    else readShape (fun v => Shape.unexpected v shape.name) fuel (c :: rest)

def pairShape {α β γ : Type} (name : String) (fuel : Nat) (first : String × Shape α)
    (second : String × Shape β) (build : Option α → Option β → Except Mismatch γ) :
    RecordShape (Option α × Option β) γ where
  name := name
  fields := [
    ⟨first.1, (·.1.isSome), fun state cs => do
      let (a, cs) ← readShape first.2 fuel cs
      return (.ok (some a, state.2), cs)⟩,
    ⟨second.1, (·.2.isSome), fun state cs => do
      let (b, cs) ← readShape second.2 fuel cs
      return (.ok (state.1, some b), cs)⟩]
  start := (none, none)
  build := fun (a, b) => build a b

structure ValueField (σ : Type) where
  name : String
  isRead : σ → Bool
  read : σ → Shape σ

def fillMembers {σ : Type} (fields : List (ValueField σ)) : List (String × Json) →
    σ → Except Mismatch σ
  | [], state => .ok state
  | (key, v) :: rest, state =>
    match fields.find? (·.name == key) with
    | none => fillMembers fields rest state
    | some field =>
      if field.isRead state then .error (.duplicateField key)
      else do
        let state ← field.read state v
        fillMembers fields rest state

def fillElements {σ : Type} : List (ValueField σ) → List Json → σ → Except Mismatch σ
  | field :: fields, v :: rest, state => do
    let state ← field.read state v
    fillElements fields rest state
  | _, _, state => .ok state

def leftOver (got asked : Nat) : Mismatch :=
  let plural := if asked = 1 then "" else "s"
  .length got s!"{asked} element{plural} in sequence"

end Calculator.Json
