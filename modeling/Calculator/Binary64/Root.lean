import Calculator.Power

/-!
# Whole roots

The greatest whole number whose `k`th power is at most a given number. It is put together from its
highest binary place down.
-/

namespace Calculator.Binary64

def rootFrom (k n : Nat) : (places : Nat) → (found : Nat) → Nat
  | 0, found => found
  | places + 1, found =>
    if (found + 2 ^ places) ^ k ≤ n then rootFrom k n places (found + 2 ^ places)
    else rootFrom k n places found

def root (k n : Nat) : Nat :=
  rootFrom k n (n.log2 / k + 1) 0

end Calculator.Binary64
