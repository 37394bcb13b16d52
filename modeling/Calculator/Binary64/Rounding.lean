import Calculator.Binary64.Basic

/-!
# Whole numbers among the doubles

Rounding a double to a whole number works on its magnitude: a quotient of natural numbers is rounded
and the sign is put back, so a negative number that rounds to nothing becomes `-0.0`. A double with
a nonnegative exponent is whole already and stays as it is.
-/

namespace Calculator.Binary64

def mapFraction (round : Bool → Nat → Nat → Nat) (x : Float) : Float :=
  match ofFloat x with
  | .finite negative mantissa exponent =>
    if 0 ≤ exponent then x
    else floatOfRatio negative (round negative mantissa (2 ^ (-exponent).toNat)) 1
  | _ => x

def ceilDiv (num den : Nat) : Nat :=
  (num + den - 1) / den

def floor (x : Float) : Float :=
  mapFraction (fun negative num den => if negative then ceilDiv num den else num / den) x

def ceil (x : Float) : Float :=
  mapFraction (fun negative num den => if negative then num / den else ceilDiv num den) x

def roundEven (x : Float) : Float :=
  mapFraction (fun _ num den => roundDiv num den) x

def isWhole (x : Float) : Bool :=
  match ofFloat x with
  | .finite _ mantissa exponent => 0 ≤ exponent || mantissa % 2 ^ (-exponent).toNat == 0
  | _ => false

def wholePart (x : Float) : Nat :=
  match ofFloat x with
  | .finite _ mantissa exponent =>
    let (num, den) := ratio mantissa exponent
    num / den
  | _ => 0

end Calculator.Binary64
