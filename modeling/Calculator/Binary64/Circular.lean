import Calculator.Binary64.Exponential

/-!
# Circular functions and their inverses

Each function gives the double nearest to the exact value. An angle is brought near zero by taking
out quarters of the circle, with as many places of `π` as the size of the angle asks for. The
inverse functions sum one series for the tangents and sines up to the middle of the quarter, and
measure the rest from its other end.
-/

namespace Calculator.Binary64

/-- An angle as a number of quarters of the circle and the rest `rest / 2 ^ places`, at most half a
quarter in size. -/
structure Angle where
  quarters : Int
  rest : Int
  places : Nat

def Angle.of (mantissa : Nat) (exponent : Int) : Angle :=
  let places := workPlaces + (exponent + 53).toNat
  let quarter := Series.halfPi places
  let (num, den) := ratio mantissa exponent
  let fixed : Int := (num * 2 ^ places / den : Nat)
  let quarters := (2 * fixed + quarter) / (2 * quarter)
  if quarters = 0 then ⟨0, num, (-exponent).toNat⟩
  else ⟨quarters, fixed - quarters * quarter, places⟩

def Angle.negatedSquare (a : Angle) : Int :=
  -(a.rest * a.rest * (2 ^ workPlaces : Nat) / (4 ^ a.places : Nat))

def Angle.sinRest (a : Angle) : Int :=
  a.rest * Series.sum Series.sine workPlaces a.negatedSquare

def Angle.cosRest (a : Angle) : Int :=
  2 ^ a.places * Series.sum Series.cosine workPlaces a.negatedSquare

def Angle.unit (a : Angle) : Nat :=
  2 ^ (a.places + workPlaces)

def Angle.sin (a : Angle) : Int :=
  if a.quarters % 4 = 0 then a.sinRest
  else if a.quarters % 4 = 1 then a.cosRest
  else if a.quarters % 4 = 2 then -a.sinRest
  else -a.cosRest

def Angle.cos (a : Angle) : Int :=
  if a.quarters % 4 = 0 then a.cosRest
  else if a.quarters % 4 = 1 then -a.sinRest
  else if a.quarters % 4 = 2 then -a.cosRest
  else a.sinRest

def sin (x : Float) : Float :=
  match ofFloat x with
  | .finite negative mantissa exponent =>
    if mantissa = 0 then x
    else
      let a := Angle.of mantissa exponent
      let s := if negative then -a.sin else a.sin
      settle (s < 0) (min s.natAbs a.unit) a.unit
  | _ => nanFloat

def cos (x : Float) : Float :=
  match ofFloat x with
  | .finite _ mantissa exponent =>
    let a := Angle.of mantissa exponent
    settle (a.cos < 0) (min a.cos.natAbs a.unit) a.unit
  | _ => nanFloat

def tan (x : Float) : Float :=
  match ofFloat x with
  | .finite negative mantissa exponent =>
    if mantissa = 0 then x
    else
      let a := Angle.of mantissa exponent
      settle (negative != ((a.sin < 0) != (a.cos < 0))) a.sin.natAbs a.cos.natAbs
  | _ => nanFloat

def arcTangent (num den : Nat) : Nat × Nat :=
  let square := num * num + den * den
  let s := Series.sum Series.arc workPlaces (num * num * 2 ^ workPlaces / square : Nat)
  let unit := square * 2 ^ workPlaces
  (min (num * den * s.toNat) unit, unit)

def atan (x : Float) : Float :=
  match ofFloat x with
  | .nan => nanFloat
  | .infinity negative => settle negative (Series.halfPi workPlaces).toNat (2 ^ workPlaces)
  | .finite negative mantissa exponent =>
    let (num, den) := ratio mantissa exponent
    if num ≤ den then
      let (a, b) := arcTangent num den
      settle negative a b
    else
      let (a, b) := arcTangent den num
      settle negative ((Series.halfPi workPlaces).toNat * b - a * 2 ^ workPlaces)
        (b * 2 ^ workPlaces)

def arcSine (num other y : Nat) : Nat :=
  num * other * (Series.sum Series.arc workPlaces y).toNat

/-- The angle with the sine `num / den`, at most one, and its complement, over
`den * 2 ^ (2 * workPlaces)`. The smaller one is computed and the other one is what is left of the
quarter. -/
def arcSines (num den : Nat) : Nat × Nat :=
  let quarter := (Series.halfPi workPlaces).toNat * den * 2 ^ workPlaces
  let square := num * num * 2 ^ workPlaces / (den * den)
  let rest := (den * den - num * num) * 4 ^ workPlaces / (den * den)
  let other := root 2 rest
  if 2 * (num * num) ≤ den * den then
    let a := min (arcSine num other square) quarter
    (a, quarter - a)
  else
    let a := min (arcSine num other (rest / 2 ^ workPlaces)) quarter
    (quarter - a, a)

theorem arcSines_add (num den : Nat) :
    (arcSines num den).1 + (arcSines num den).2 =
      (Series.halfPi workPlaces).toNat * den * 2 ^ workPlaces := by
  simp only [arcSines]
  split <;> simp only <;> omega

def arcUnit (den : Nat) : Nat :=
  den * 4 ^ workPlaces

def asin (x : Float) : Float :=
  match ofFloat x with
  | .finite negative mantissa exponent =>
    let (num, den) := ratio mantissa exponent
    if den < num then nanFloat
    else settle negative (arcSines num den).1 (arcUnit den)
  | _ => nanFloat

def acos (x : Float) : Float :=
  match ofFloat x with
  | .finite negative mantissa exponent =>
    let (num, den) := ratio mantissa exponent
    if den < num then nanFloat
    else
      let (angle, complement) := arcSines num den
      settle false (if negative then angle + (angle + complement) else complement) (arcUnit den)
  | _ => nanFloat

end Calculator.Binary64
