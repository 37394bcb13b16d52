import Calculator.Binary64.Basic

/-!
# Decimal numbers

A nonnegative decimal is a whole number of digits with a power of ten. Several of them have one
value; the normal one has no trailing zero among its digits.
-/

namespace Calculator

structure Decimal where
  digits : Nat
  exponent : Int
deriving DecidableEq, Repr

namespace Decimal

def digitChars (n : Nat) : List Char :=
  Nat.toDigits 10 n

def scientificExponent (d : Decimal) : Int :=
  d.exponent + (digitChars d.digits).length - 1

def ratio (d : Decimal) : Nat × Nat :=
  if 0 ≤ d.exponent then (d.digits * 10 ^ d.exponent.toNat, 1) else
    (d.digits, 10 ^ (-d.exponent).toNat)

def normalize (d : Decimal) : Decimal :=
  if h : 0 < d.digits ∧ d.digits % 10 = 0 then
    have : d.digits / 10 < d.digits := Nat.div_lt_self h.1 (by decide)
    normalize ⟨d.digits / 10, d.exponent + 1⟩
  else d
termination_by d.digits

def exact (mantissa : Nat) (exponent : Int) : Decimal :=
  if 0 ≤ exponent then ⟨mantissa * 2 ^ exponent.toNat, 0⟩
  else ⟨mantissa * 5 ^ (-exponent).toNat, exponent⟩

end Decimal

end Calculator
