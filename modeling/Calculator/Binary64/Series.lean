import Calculator.Binary64.Basic

/-!
# Series in fixed point

A fixed-point number with `p` places is the whole number that stands for its value times `2 ^ p`. A
series is given by the fractions that lead from each term to the next one; it starts with one, and
every step takes one more power of the argument. The sum ends with the first term that vanishes in
fixed point. The constants and the functions that have such a series are built from it.
-/

namespace Calculator.Binary64.Series

/-- Numerator and denominator of the step from the `n`th term to the next one. -/
abbrev Steps := Nat → Nat × Nat

def sumFrom (steps : Steps) (p : Nat) (y : Int) : (fuel n : Nat) → (term : Int) → Int
  | 0, _, _ => 0
  | fuel + 1, n, term =>
    if term = 0 then 0
    else
      let (num, den) := steps n
      term + sumFrom steps p y fuel (n + 1) (term * y * num / (den * 2 ^ p : Nat))

def sum (steps : Steps) (p : Nat) (y : Int) : Int :=
  sumFrom steps p y (p + 1) 0 (2 ^ p : Nat)

def exponential : Steps := fun n => (1, n + 1)

def cosine : Steps := fun n => (1, (2 * n + 1) * (2 * n + 2))

def sine : Steps := fun n => (1, (2 * n + 2) * (2 * n + 3))

def areaTangent : Steps := fun n => (2 * n + 1, 2 * n + 3)

/-- The arc sine of `x` divided by `x √(1 - x²)`, as a series in `y = x²`. With the sine
`t / √(1 + t²)` of the angle whose tangent is `t` it gives arc tangents too. -/
def arc : Steps := fun n => (2 * n + 2, 2 * n + 3)

def arcTangentOfInverse (p n : Nat) : Int :=
  n * sum arc p (2 ^ p / (n * n + 1) : Nat) / (n * n + 1 : Nat)

/-- Half of a straight angle's number, `π / 2 = 2 (4 arctan (1/5) - arctan (1/239))`. -/
def halfPi (p : Nat) : Int :=
  2 * (4 * arcTangentOfInverse p 5 - arcTangentOfInverse p 239)

def ln2 (p : Nat) : Int :=
  2 * sum areaTangent p (2 ^ p / 9 : Nat) / 3

end Calculator.Binary64.Series
