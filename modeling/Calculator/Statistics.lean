import Calculator.Binary64.Order
import Calculator.Choice
import Calculator.Failure

/-!
# Statistics of a list of numbers

A statistic is refused when there are too few values for it. The sample formulas divide by one less
than the number of values and need two of them; the population formulas need one. The mode is the
value that occurs most often, the earliest one of several.
-/

namespace Calculator

namespace Statistics

def require (values : List Float) (least : Nat) (what : String) : Outcome Unit :=
  if values.length < least then .error (.insufficient (.values what least values.length))
  else .ok ()

/-- The sum from left to right. It starts from `-0.0`, which changes no number that is added to
it. -/
def total (values : List Float) : Float :=
  values.foldl (· + ·) (-0.0)

def count (values : List Float) : Float :=
  Binary64.floatOfRatio false values.length 1

def sum (values : List Float) : Outcome Float := do
  require values 1 "sum"
  return total values

def mean (values : List Float) : Outcome Float := do
  require values 1 "mean"
  return total values / count values

def arrange (values : List Float) : List Float :=
  values.mergeSort fun x y => Binary64.orderKey x ≤ Binary64.orderKey y

def median (values : List Float) : Outcome Float := do
  require values 1 "median"
  let sorted := arrange values
  let middle := sorted.length / 2
  if sorted.length % 2 = 0 then
    return (sorted.getD (middle - 1) 0 + sorted.getD middle 0) / 2
  else return sorted.getD middle 0

def sameValue (x y : Float) : Bool :=
  (Binary64.mergeZero x).toBits == (Binary64.mergeZero y).toBits

theorem sameValue_self (x : Float) : sameValue x x = true := by
  simp [sameValue]

def frequency (values : List Float) (x : Float) : Nat :=
  values.countP (sameValue x)

/-- A value of a list, as it stands at its first place, and how often it occurs. -/
structure Tally where
  value : Float
  count : Nat
  place : Nat

def Tally.add (x : Float) (place : Nat) : List Tally → List Tally
  | [] => [⟨x, 1, place⟩]
  | t :: rest =>
    if sameValue t.value x then { t with count := t.count + 1 } :: rest
    else t :: Tally.add x place rest

def tallies (values : List Float) : List Tally :=
  values.zipIdx.foldl (fun done (x, place) => Tally.add x place done) []

/-- Whether a value comes before another one as the mode: it occurs more often, or as often and
earlier. -/
def Tally.leads (s t : Tally) : Bool :=
  t.count < s.count || (s.count == t.count && s.place < t.place)

def leader? (ts : List Tally) : Option Tally :=
  ts.foldl (fun best t => some (best.elim t fun s => if t.leads s then t else s)) none

def mode (values : List Float) : Outcome Float := do
  require values 1 "mode"
  return (leader? (tallies values)).elim 0 (·.value)

def squaredDeviations (values : List Float) : Outcome Float := do
  let m ← mean values
  return total (values.map fun x => (x - m) * (x - m))

def variance (values : List Float) : Outcome Float := do
  require values 2 "variance"
  return (← squaredDeviations values) / Binary64.floatOfRatio false (values.length - 1) 1

def stdev (values : List Float) : Outcome Float := do
  require values 2 "stdev"
  return (← variance values).sqrt

def pvariance (values : List Float) : Outcome Float := do
  require values 1 "pvariance"
  return (← squaredDeviations values) / count values

def min (values : List Float) : Outcome Float := do
  require values 1 "min"
  return values.foldl Binary64.smaller (1 / 0)

def max (values : List Float) : Outcome Float := do
  require values 1 "max"
  return values.foldl Binary64.larger (-1 / 0)

structure Summary where
  count : Nat
  mean : Float
  median : Float
  min : Float
  max : Float
  range : Float
  sum : Float
  stdev : Option Float
  variance : Option Float

def finiteIfAny (x : Option Float) (what : String) : Outcome (Option Float) :=
  match x with
  | none => .ok none
  | some x => some <$> finite x what

def summary (values : List Float) : Outcome Summary := do
  require values 1 "summary"
  let least ← min values
  let greatest ← max values
  let several := 2 ≤ values.length
  let deviation ← if several then some <$> stdev values else .ok none
  let spread ← if several then some <$> variance values else .ok none
  return {
    count := values.length
    mean := ← finite (← mean values) "mean"
    median := ← finite (← median values) "median"
    min := least
    max := greatest
    range := ← finite (greatest - least) "range"
    sum := ← finite (total values) "sum"
    stdev := ← finiteIfAny deviation "stdev"
    variance := ← finiteIfAny spread "variance" }

end Statistics

inductive Statistic where
  | mean
  | median
  | mode
  | stdev
  | variance
  | pstdev
  | pvariance
  | sum
  | min
  | max
  | range
deriving DecidableEq, Repr

namespace Statistic

def all : List Statistic :=
  [.mean, .median, .mode, .stdev, .variance, .pstdev, .pvariance, .sum, .min, .max, .range]

def name : Statistic → String
  | .mean => "mean"
  | .median => "median"
  | .mode => "mode"
  | .stdev => "stdev"
  | .variance => "variance"
  | .pstdev => "pstdev"
  | .pvariance => "pvariance"
  | .sum => "sum"
  | .min => "min"
  | .max => "max"
  | .range => "range"

def method : Statistic → Option String
  | .stdev | .variance => some "sample"
  | .pstdev | .pvariance => some "population"
  | _ => none

def compute (s : Statistic) (values : List Float) : Outcome Float :=
  match s with
  | .mean => Statistics.mean values
  | .median => Statistics.median values
  | .mode => Statistics.mode values
  | .stdev => Statistics.stdev values
  | .variance => Statistics.variance values
  | .pstdev => do return (← Statistics.pvariance values).sqrt
  | .pvariance => Statistics.pvariance values
  | .sum => Statistics.sum values
  | .min => Statistics.min values
  | .max => Statistics.max values
  | .range => do return (← Statistics.max values) - (← Statistics.min values)

def evaluate (s : Statistic) (values : List Float) : Outcome Float := do
  finite (← s.compute values) s.name

end Statistic

inductive StatisticsOperation where
  | single (s : Statistic)
  | summary
deriving DecidableEq, Repr

namespace StatisticsOperation

def all : List StatisticsOperation :=
  Statistic.all.map .single ++ [.summary]

def name : StatisticsOperation → String
  | .single s => s.name
  | .summary => "summary"

instance : Choice StatisticsOperation where
  all := all
  name := name
  mem_all := by rintro (s | _) <;> (try cases s) <;> decide
  nodup_names := by decide

def method : StatisticsOperation → Option String
  | .single s => s.method
  | .summary => none

inductive Answer where
  | value (x : Float)
  | summary (s : Statistics.Summary)

def evaluate (op : StatisticsOperation) (values : List Float) : Outcome Answer :=
  match op with
  | .single s => .value <$> s.evaluate values
  | .summary => .summary <$> Statistics.summary values

end StatisticsOperation

end Calculator
