import Calculator.Power

/-!
# JSON values

A whole number that fits 64 bits is kept apart from a floating number, since `5` and `5.0` are
different documents. A document lists the members of an object in the order they are written; its
value has them with ascending, distinct keys, where the last member written under a key counts.
-/

namespace Calculator

namespace Json

/-- A whole number that fits 64 bits, with or without a sign. -/
structure Whole where
  val : Int
  lower : -2 ^ 63 ≤ val
  upper : val < 2 ^ 64
deriving DecidableEq, Repr

def Whole.ofInt? (n : Int) : Option Whole :=
  if h : -2 ^ 63 ≤ n ∧ n < 2 ^ 64 then some ⟨n, h.1, h.2⟩ else none

theorem Whole.ofInt?_val (w : Whole) : Whole.ofInt? w.val = some w := by
  obtain ⟨n, h₁, h₂⟩ := w
  exact dif_pos ⟨h₁, h₂⟩

def Whole.ofUInt64 (n : UInt64) : Whole :=
  ⟨n.toNat, by omega, by have := n.toNat_lt; omega⟩

def Whole.ofNat (n : Nat) : Whole :=
  Whole.ofUInt64 (UInt64.ofNat n)

end Json

inductive Json where
  | null
  | bool (b : Bool)
  | whole (n : Json.Whole)
  | float (x : Float)
  | string (s : String)
  | array (items : List Json)
  | object (members : List (String × Json))

namespace Json

instance : Inhabited Json := ⟨.null⟩

def isNull : Json → Bool
  | .null => true
  | _ => false

def put {α : Type} (key : String) (value : α) : List (String × α) → List (String × α)
  | [] => [(key, value)]
  | (k, v) :: rest =>
    if key < k then (key, value) :: (k, v) :: rest
    else if key = k then (key, value) :: rest
    else (k, v) :: put key value rest

def putAll {α : Type} (members : List (String × α)) : List (String × α) :=
  members.foldl (fun done m => put m.1 m.2 done) []

def ofMembers (members : List (String × Json)) : Json :=
  .object (putAll members)

mutual

/-- The value of a document: the members of every object in ascending order of their keys. -/
def sorted : Json → Json
  | .array items => .array (sortedItems items)
  | .object members => ofMembers (sortedMembers members)
  | v => v

def sortedItems : List Json → List Json
  | [] => []
  | v :: rest => sorted v :: sortedItems rest

def sortedMembers : List (String × Json) → List (String × Json)
  | [] => []
  | (key, v) :: rest => (key, sorted v) :: sortedMembers rest

end

def get? (key : String) : Json → Option Json
  | .object members => (members.find? (·.1 == key)).map (·.2)
  | _ => none

def asString? : Json → Option String
  | .string s => some s
  | _ => none

end Json

end Calculator
