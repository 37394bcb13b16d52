import Calculator.Binary64.Basic

/-!
# Doubles from close approximations

A function without exact values is computed to many more places than a double has, and the result is
rounded once more. An approximation that lies this close to a double, or to the middle between two
of them, stands for that number itself: the functions of this library take such values only exactly.
-/

namespace Calculator.Binary64

def keptPlaces : Nat := 192

def workPlaces : Nat := 320

/-- The double for the approximation `± num / den`, where `den` is positive. -/
def settle (negative : Bool) (num den : Nat) : Float :=
  let shift : Int := (keptPlaces : Int) + den.log2 - num.log2
  let kept := if 0 ≤ shift then roundDiv (num * 2 ^ shift.toNat) den
    else roundDiv num (den * 2 ^ (-shift).toNat)
  let (a, b) := ratio kept (-shift)
  floatOfRatio negative a b

def settleInt (num : Int) (den : Nat) : Float :=
  settle (num < 0) num.natAbs den

end Calculator.Binary64
