import Calculator.Binary64.Circular
import Calculator.Choice
import Calculator.Failure

/-!
# Trigonometric functions

Angles are in degrees or radians. The inverse functions take a ratio and give an angle. The tangent
is refused where the cosine is so close to zero that the angle may be a pole.
-/

namespace Calculator

inductive TrigOperation where
  | sin
  | cos
  | tan
  | asin
  | acos
  | atan
deriving DecidableEq, Repr

namespace TrigOperation

def all : List TrigOperation :=
  [.sin, .cos, .tan, .asin, .acos, .atan]

def name : TrigOperation → String
  | .sin => "sin"
  | .cos => "cos"
  | .tan => "tan"
  | .asin => "asin"
  | .acos => "acos"
  | .atan => "atan"

instance : Choice TrigOperation where
  all := all
  name := name
  mem_all := by intro a; cases a <;> decide
  nodup_names := by decide

def isInverse : TrigOperation → Bool
  | .asin | .acos | .atan => true
  | _ => false

def degreesPerRadian : Float := 57.29577951308232

def radiansPerDegree : Float := 0.017453292519943295

/-- A cosine nearer to zero than this is taken as that of a pole. -/
def poleTolerance : Float := 1e-12

def unitInterval (x : Float) (what : String) : Outcome Float :=
  if -1 ≤ x && x ≤ 1 then .ok x else .error (.domain (.outsideUnitInterval what x))

def fromRadians (useRadians : Bool) (x : Float) : Float :=
  if useRadians then x else x * degreesPerRadian

def toRadians (useRadians : Bool) (x : Float) : Float :=
  if useRadians then x else x * radiansPerDegree

def evaluate (op : TrigOperation) (x : Float) (useRadians : Bool) : Outcome Float :=
  match op with
  | .sin => .ok (Binary64.sin (toRadians useRadians x))
  | .cos => .ok (Binary64.cos (toRadians useRadians x))
  | .tan =>
    let radians := toRadians useRadians x
    if (Binary64.cos radians).abs < poleTolerance then .error (.domain (.tanPole x useRadians))
    else finite (Binary64.tan radians) "tan"
  | .asin => do return fromRadians useRadians (Binary64.asin (← unitInterval x "asin"))
  | .acos => do return fromRadians useRadians (Binary64.acos (← unitInterval x "acos"))
  | .atan => .ok (fromRadians useRadians (Binary64.atan x))

end TrigOperation

end Calculator
