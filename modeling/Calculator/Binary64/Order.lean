import Calculator.Binary64.Basic

/-!
# Orders on the doubles

The total order reads a bit pattern as a signed magnitude: negative numbers before positive ones,
`-0.0` before `0.0`, and a NaN beyond the infinity of its sign. The smaller and the larger of two
doubles ignore a NaN that stands beside a number.
-/

namespace Calculator.Binary64

def orderKey (x : Float) : Int :=
  let bits := x.toBits.toNat
  if 2 ^ 63 ≤ bits then -((bits - 2 ^ 63 : Nat) : Int) - 1 else bits

/-- The double itself, with `-0.0` merged into `0.0`. -/
def mergeZero (x : Float) : Float :=
  if x == 0 then 0 else x

def smaller (x y : Float) : Float :=
  if x.isNaN then y else if y.isNaN then x else if y < x then y else x

def larger (x y : Float) : Float :=
  if x.isNaN then y else if y.isNaN then x else if x < y then y else x

end Calculator.Binary64
