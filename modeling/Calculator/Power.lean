/-!
# Powers of numbers

A power of a natural number or an integer is the one that comes with the number types, also where a
theory of monoids is at hand that has powers of its own. So a formula means one thing in every
module that has this one among what it builds on.
-/

namespace Calculator

universe u

@[default_instance 20000]
instance (priority := 2000) power {α : Type u} [NatPow α] : Pow α Nat :=
  instPowNat

end Calculator
