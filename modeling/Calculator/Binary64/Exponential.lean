import Calculator.Binary64.Root
import Calculator.Binary64.Rounding
import Calculator.Binary64.Series
import Calculator.Binary64.Settle

/-!
# Exponential function, logarithms, powers and cube roots

Each function gives the double nearest to the exact value. The exponential function takes out a
power of two and sums a series for the rest; a logarithm takes out a power of two and sums the
series of the inverse hyperbolic tangent; a power is the exponential function of the exponent times
the logarithm.
-/

namespace Calculator.Binary64

def nanFloat : Float := 0 / 0

def infinityFloat (negative : Bool) : Float :=
  floatOfPattern negative infinityPattern

def zeroFloat (negative : Bool) : Float :=
  floatOfPattern negative 0

def greatestExponent : Nat := 1100

def expFixed (negative : Bool) (t : Int) : Float :=
  let bound : Int := (greatestExponent * 2 ^ workPlaces : Nat)
  if bound < t then infinityFloat negative
  else if t < -bound then zeroFloat negative
  else
    let unit := Series.ln2 workPlaces
    let n := t / unit
    let s := (Series.sum Series.exponential workPlaces (t - n * unit)).toNat
    let (num, den) := ratio s (n - workPlaces)
    settle negative num den

def lnFixed (mantissa : Nat) (exponent : Int) : Int :=
  let places := mantissa.log2
  let one := 2 ^ places
  let t := (mantissa - one) * 2 ^ workPlaces / (mantissa + one)
  let s := Series.sum Series.areaTangent workPlaces (t * t / 2 ^ workPlaces : Nat)
  (exponent + places) * Series.ln2 workPlaces + 2 * t * s / (2 ^ workPlaces : Nat)

def scaleFixed (t : Int) (negative : Bool) (mantissa : Nat) (exponent : Int) : Int :=
  let (num, den) := ratio mantissa exponent
  let product := t * num / den
  if negative then -product else product

def exp (x : Float) : Float :=
  match ofFloat x with
  | .nan => nanFloat
  | .infinity negative => if negative then 0 else x
  | .finite negative mantissa exponent =>
    expFixed false (scaleFixed (2 ^ workPlaces : Nat) negative mantissa exponent)

def logWith (unit : Nat) (x : Float) : Float :=
  match ofFloat x with
  | .nan => nanFloat
  | .infinity negative => if negative then nanFloat else x
  | .finite negative mantissa exponent =>
    if mantissa = 0 then infinityFloat true
    else if negative then nanFloat
    else settleInt (lnFixed mantissa exponent) unit

def log (x : Float) : Float :=
  logWith (2 ^ workPlaces) x

def log2 (x : Float) : Float :=
  logWith (Series.ln2 workPlaces).toNat x

def log10 (x : Float) : Float :=
  logWith (lnFixed 10 0).toNat x

def isOdd (x : Float) : Bool :=
  isWhole x && wholePart x % 2 == 1

def powPositive (negative : Bool) (mantissa : Nat) (exponent : Int) (y : Binary64) : Float :=
  match y with
  | .finite s m e => expFixed negative (scaleFixed (lnFixed mantissa exponent) s m e)
  | _ => nanFloat

/-- The power `x ^ y`. A zero exponent and a base of one give one even for a NaN. Zeros and
infinities keep the sign of their base for odd exponents only, and a negative base has powers with
whole exponents only. -/
def pow (x y : Float) : Float :=
  if y == 0 || x == 1 then 1
  else
    match ofFloat x, ofFloat y with
    | .nan, _ => nanFloat
    | _, .nan => nanFloat
    | _, .infinity falling =>
      if x.abs == 1 then 1
      else if (x.abs < 1) == falling then infinityFloat false
      else 0
    | .infinity negative, _ =>
      let sign := negative && isOdd y
      if y < 0 then zeroFloat sign else infinityFloat sign
    | .finite negative mantissa exponent, e =>
      let sign := negative && isOdd y
      if mantissa = 0 then (if y < 0 then infinityFloat sign else zeroFloat sign)
      else if negative && !isWhole y then nanFloat
      else powPositive sign mantissa exponent e

def cbrt (x : Float) : Float :=
  match ofFloat x with
  | .finite negative mantissa exponent =>
    -- enough places, and an exponent that three divides
    let places := 600 + (exponent % 3).toNat
    let (num, den) := ratio (root 3 (mantissa * 2 ^ places)) ((exponent - places) / 3)
    settle negative num den
  | _ => x

end Calculator.Binary64
