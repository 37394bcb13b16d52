import Calculator.Json.Basic

/-!
# Reports

A report says what was computed: the operation, its result, and details in the order in which they
were added. A value in a report is a plain value, a mapping that keeps its order, or a list.
-/

namespace Calculator

namespace Report

inductive Field where
  | scalar (value : Json)
  | map (entries : List (String × Field))
  | list (items : List Field)

abbrev Details := List (String × Field)

namespace Field

instance : Inhabited Field := ⟨.scalar .null⟩

def string (s : String) : Field := .scalar (.string s)

def bool (b : Bool) : Field := .scalar (.bool b)

def size (n : Nat) : Field := .scalar (.whole (.ofNat n))

def float (x : Float) : Field := .scalar (if x.isFinite then .float x else .null)

def floats (xs : List Float) : Field := .list (xs.map float)

theorem float_of_isFinite {x : Float} (h : x.isFinite = true) : float x = .scalar (.float x) := by
  simp [float, h]

end Field

def Details.get? (details : Details) (key : String) : Option Field :=
  (details.find? (·.1 == key)).map (·.2)

end Report

structure Report where
  operation : String
  result : Report.Field
  details : Report.Details
  verdict : Option String := none

end Calculator
