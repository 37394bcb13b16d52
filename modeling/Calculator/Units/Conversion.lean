import Calculator.Units.Family

/-!
# Converting between units

A number goes from its unit to the base unit and on to the other one. A temperature below absolute
zero is refused before the other unit counts, and a number stays as it is when both units are the
same.
-/

namespace Calculator

structure Conversion (α : Type) where
  value : α
  fromUnit : String
  toUnit : String

namespace UnitFamily

section

variable {α : Type} [OfScientific α] [Neg α] [Add α] [Sub α] [Mul α] [Div α] [LT α]
  [DecidableRel (α := α) (· < ·)]

def coldest : α := -273.15 - 1e-9

/-- Converts a number of any type. `refuse` is the failure of a temperature that does not exist, and
`check` looks at the number that comes out. -/
def convertWith (refuse : α → String → Failure) (check : α → Outcome α)
    (family : UnitFamily) (x : α) (source target : String) : Outcome (Conversion α) := do
  let fromUnit : UnitEntry α ← family.resolve source
  let toUnit : UnitEntry α ← family.resolve target
  let base := fromUnit.rule.toBase x
  if family = .temperature ∧ base < coldest then .error (refuse x fromUnit.name)
  else if fromUnit.name = toUnit.name then .ok ⟨x, fromUnit.name, toUnit.name⟩
  else do
    let y ← check (toUnit.rule.fromBase base)
    return ⟨y, fromUnit.name, toUnit.name⟩

end

def convert (family : UnitFamily) (x : Float) (source target : String) :
    Outcome (Conversion Float) :=
  family.convertWith (fun x unit => .domain (.belowAbsoluteZero x unit)) (finite · "conversion") x
    source target

end UnitFamily

end Calculator
