/-!
# Conversion rules

A unit is described by the affine map to the base unit of its family. The numbers of a rule are of
any type with the four operations, so one table serves floating and exact numbers.
-/

namespace Calculator

structure ConversionRule (α : Type) where
  offset : α
  numerator : α
  denominator : α

namespace ConversionRule

variable {α : Type}

section

variable [OfScientific α]

def linear (factor : α) : ConversionRule α := ⟨0.0, factor, 1.0⟩

end

section

variable [Add α] [Mul α] [Div α]

def toBase (rule : ConversionRule α) (x : α) : α :=
  (x + rule.offset) * rule.numerator / rule.denominator

end

section

variable [Sub α] [Mul α] [Div α]

def fromBase (rule : ConversionRule α) (base : α) : α :=
  base * rule.denominator / rule.numerator - rule.offset

end

end ConversionRule

end Calculator
