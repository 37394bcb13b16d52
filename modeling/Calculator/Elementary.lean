import Calculator.Binary64.Exponential
import Calculator.Binary64.Rounding
import Calculator.Choice
import Calculator.Failure

/-!
# Powers, roots, rounding and logarithms

Each function is refused outside its domain. A number is rounded to decimals by scaling it with a
power of ten and rounding to the even neighbour; a number that scaling would take beyond the finite
range has no decimals to lose.
-/

namespace Calculator

inductive AdvancedOperation where
  | power
  | sqrt
  | cbrt
  | ceil
  | floor
  | round
  | abs
  | log
  | log10
  | log2
  | exp
  | factorial
deriving DecidableEq, Repr

namespace Elementary

def power (base exponent : Float) : Outcome Float :=
  if base == 0 && exponent < 0 then .error (.domain .zeroToNegative)
  else
    let result := Binary64.pow base exponent
    if result.isNaN then .error (.domain (.notReal base exponent)) else finite result "power"

def sqrt (x : Float) : Outcome Float :=
  if x < 0 then .error (.domain (.negativeRoot x)) else .ok x.sqrt

def powerOfTen (n : Nat) : Float :=
  Binary64.floatOfRatio false (10 ^ n) 1

/-- Rounds to a number of decimals, a half to the even neighbour. -/
def round (x : Float) (decimals : Nat) : Outcome Float :=
  if maxDecimals < decimals then .error (.validation "decimals" .decimalsInRange)
  else if decimals = 0 then .ok (Binary64.roundEven x)
  else
    let factor := powerOfTen decimals
    if (x.abs * factor).isFinite then .ok (Binary64.roundEven (x * factor) / factor) else .ok x

def product (n : Nat) : Float :=
  (List.range' 2 (n - 1)).foldl (fun p k => p * Binary64.floatOfRatio false k 1) 1

def factorial (x : Float) : Outcome Float :=
  if x < 0 || !Binary64.isWhole x then .error (.domain (.notFactorialArgument x))
  else
    let n := Binary64.wholePart x
    if maxFactorial < n then .error (.domain (.factorialTooLarge x)) else .ok (product n)

def logarithm (x : Float) (f : Float → Float) (what : String) : Outcome Float :=
  if x ≤ 0 then .error (.domain (.notPositive what x)) else .ok (f x)

end Elementary

namespace AdvancedOperation

def all : List AdvancedOperation :=
  [.power, .sqrt, .cbrt, .ceil, .floor, .round, .abs, .log, .log10, .log2, .exp, .factorial]

def name : AdvancedOperation → String
  | .power => "power"
  | .sqrt => "sqrt"
  | .cbrt => "cbrt"
  | .ceil => "ceil"
  | .floor => "floor"
  | .round => "round"
  | .abs => "abs"
  | .log => "log"
  | .log10 => "log10"
  | .log2 => "log2"
  | .exp => "exp"
  | .factorial => "factorial"

instance : Choice AdvancedOperation where
  all := all
  name := name
  mem_all := by intro a; cases a <;> decide
  nodup_names := by decide

def compute (op : AdvancedOperation) (x : Float) (exponent : Option Float) (decimals : Nat) :
    Outcome Float :=
  match op with
  | .power =>
    match exponent with
    | none => .error (.validation "exponent" .neededForPower)
    | some e => Elementary.power x e
  | .sqrt => Elementary.sqrt x
  | .cbrt => .ok (Binary64.cbrt x)
  | .ceil => .ok (Binary64.ceil x)
  | .floor => .ok (Binary64.floor x)
  | .round => Elementary.round x decimals
  | .abs => .ok x.abs
  | .log => Elementary.logarithm x Binary64.log "log"
  | .log10 => Elementary.logarithm x Binary64.log10 "log10"
  | .log2 => Elementary.logarithm x Binary64.log2 "log2"
  | .exp => .ok (Binary64.exp x)
  | .factorial => Elementary.factorial x

def apply (op : AdvancedOperation) (x : Float) (exponent : Option Float) (decimals : Nat) :
    Outcome Float := do
  finite (← op.compute x exponent decimals) op.name

end AdvancedOperation

end Calculator
