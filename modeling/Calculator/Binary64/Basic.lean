import Calculator.Power

/-!
# Floating numbers as multiples of powers of two

A finite double is `± mantissa * 2 ^ exponent` with a natural mantissa. Here a double is taken apart
into these parts, and the double nearest to a positive fraction is found, all in whole number
arithmetic. The bit pattern without the sign grows with the number, so one formula covers subnormal
numbers, normal numbers, and the carry into the next binade.
-/

namespace Calculator

/-- The value of a double. A zero keeps its sign. -/
inductive Binary64 where
  | nan
  | infinity (negative : Bool)
  | finite (negative : Bool) (mantissa : Nat) (exponent : Int)
deriving DecidableEq, Repr

namespace Binary64

def leastExponent : Int := -1074

def infinityPattern : Nat := 2047 * 2 ^ 52

/-- The number that a 63 bit pattern without sign stands for. -/
def ofPattern (negative : Bool) (pattern : Nat) : Binary64 :=
  let field : Nat := pattern / 2 ^ 52
  let fraction := pattern % 2 ^ 52
  if field = 2047 then
    if fraction = 0 then .infinity negative else .nan
  else if field = 0 then .finite negative fraction leastExponent
  else .finite negative (2 ^ 52 + fraction) ((field : Int) - 1075)

def patternOf (mantissa : Nat) (exponent : Int) : Nat :=
  (exponent - leastExponent).toNat * 2 ^ 52 + mantissa

theorem patternOf_ofPattern {negative s : Bool} {pattern m : Nat} {e : Int}
    (h : ofPattern negative pattern = .finite s m e) : patternOf m e = pattern := by
  unfold ofPattern at h
  simp only at h
  split at h
  · split at h <;> cases h
  · split at h
    · cases h
      simp only [patternOf, leastExponent]
      omega
    · cases h
      simp only [patternOf, leastExponent]
      omega

def ofFloat (x : Float) : Binary64 :=
  let bits := x.toBits.toNat
  ofPattern (2 ^ 63 ≤ bits) (bits % 2 ^ 63)

def floatOfPattern (negative : Bool) (pattern : Nat) : Float :=
  Float.ofBits (UInt64.ofNat (if negative then 2 ^ 63 + pattern else pattern))

def roundDiv (num den : Nat) : Nat :=
  let q := num / den
  let r := num % den
  if den < 2 * r ∨ (den = 2 * r ∧ q % 2 = 1) then q + 1 else q

theorem roundDiv_one (n : Nat) : roundDiv n 1 = n := by
  simp [roundDiv, Nat.mod_one]

def exponentOfRatio (num den : Nat) : Int :=
  let guess : Int := (num.log2 : Int) - den.log2 - 53
  let wide := if 0 ≤ guess then den * 2 ^ (guess.toNat + 53) ≤ num
    else den * 2 ^ 53 ≤ num * 2 ^ (-guess).toNat
  max (if wide then guess + 1 else guess) leastExponent

/-- The pattern of the double nearest to the fraction `num / den`, where `den` is positive. -/
def patternOfRatio (num den : Nat) : Nat :=
  if num = 0 then 0
  else
    let e := exponentOfRatio num den
    let mantissa := if 0 ≤ e then roundDiv num (den * 2 ^ e.toNat)
      else roundDiv (num * 2 ^ (-e).toNat) den
    (e - leastExponent).toNat * 2 ^ 52 + mantissa

def floatOfRatio (negative : Bool) (num den : Nat) : Float :=
  floatOfPattern negative (min (patternOfRatio num den) infinityPattern)

def ratio (mantissa : Nat) (exponent : Int) : Nat × Nat :=
  if 0 ≤ exponent then (mantissa * 2 ^ exponent.toNat, 1) else (mantissa, 2 ^ (-exponent).toNat)

end Binary64

end Calculator
