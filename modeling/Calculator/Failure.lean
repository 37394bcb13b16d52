import Calculator.Encoding.Base64
import Calculator.Encoding.Hex
import Calculator.FileTree.Policy
import Calculator.Json.Fault

/-!
# Why a request fails

A failure is a cause: a field that breaks a constraint, an operation outside its domain, an input
that cannot be decoded, and so on. The wording of all causes stands here.
-/

namespace Calculator

inductive Constraint where
  | required
  | mismatch (m : Json.Mismatch)
  | neededForPower
  | decimalsInRange
  | hexDigest
  | nonemptyBatch
  | batchWithinLimit (size : Nat) (limit : UInt64)
  | admittedPath (refusal : PathRefusal)
  | isFile (path : String)
  | fileWithinLimit (size : Nat) (limit : UInt64)
  | base64
  | hex
  | evenHex
  | stated (text : String)

def maxDecimals : Nat := 15

def Constraint.message : Constraint → String
  | .required => "field is required"
  | .mismatch m => m.message
  | .neededForPower => "required for the 'power' operation"
  | .decimalsInRange => s!"must be between 0 and {maxDecimals}"
  | .hexDigest => "must be a hexadecimal string"
  | .nonemptyBatch => "must contain at least one input"
  | .batchWithinLimit size limit => s!"contains {size} inputs, more than the limit of {limit}"
  | .admittedPath refusal => refusal.message
  | .isFile path => s!"path is not a file: {path}"
  | .fileWithinLimit size limit => s!"file is {size} bytes, larger than the {limit} byte limit"
  | .base64 => "invalid base64 encoded data"
  | .hex => "invalid hex encoded data"
  | .evenHex => "hex data must have an even length"
  | .stated text => text

def maxFactorial : Nat := 170

inductive DomainFault where
  | overflow (what : String)
  | zeroToNegative
  | notReal (base exponent : Float)
  | negativeRoot (x : Float)
  | notPositive (what : String) (x : Float)
  | notFactorialArgument (x : Float)
  | factorialTooLarge (x : Float)
  | outsideUnitInterval (what : String) (x : Float)
  | tanPole (x : Float) (radians : Bool)
  | belowAbsoluteZero (x : Float) (unit : String)
  | stated (text : String)

def sentenceText (x : Float) : String :=
  floatText .sentence x

def DomainFault.message : DomainFault → String
  | .overflow what => s!"{what} result overflows"
  | .zeroToNegative => "zero cannot be raised to a negative power"
  | .notReal base exponent =>
    s!"{sentenceText base} raised to {sentenceText exponent} is not a real number"
  | .negativeRoot x => s!"cannot take the square root of negative number {sentenceText x}"
  | .notPositive what x => s!"{what} is only defined for positive numbers, got {sentenceText x}"
  | .notFactorialArgument x =>
    s!"factorial is only defined for non-negative integers, got {sentenceText x}"
  | .factorialTooLarge x => s!"factorial of {sentenceText x} overflows (maximum is {maxFactorial})"
  | .outsideUnitInterval what x => s!"{what} is only defined on [-1, 1], got {sentenceText x}"
  | .tanPole x radians =>
    let unit := if radians then " rad" else "°"
    s!"tan is undefined at {sentenceText x}{unit}"
  | .belowAbsoluteZero x unit => s!"{sentenceText x} {unit} is below absolute zero"
  | .stated text => text

inductive Malformation where
  | json (text : List Char) (fault : Json.Fault)
  | base64 (fault : Base64.Fault)
  | hex (fault : Hex.Fault)
  | stated (text : String)

def Malformation.message : Malformation → String
  | .json text fault => s!"invalid JSON data: {fault.message text}"
  | .base64 fault => s!"invalid base64 encoded data: {fault.message}"
  | .hex fault => s!"invalid hex encoded data: {fault.message}"
  | .stated text => text

inductive Shortage where
  | values (what : String) (least got : Nat)
  | stated (text : String)

def Shortage.message : Shortage → String
  | .values what least got =>
    let plural := if least = 1 then "" else "s"
    s!"{what} requires at least {least} value{plural}, got {got}"
  | .stated text => text

inductive ReadFault where
  | file (fault : FileFault)
  | stated (text : String)

def ReadFault.message : ReadFault → String
  | .file fault => fault.message
  | .stated text => text

inductive Failure where
  | validation (field : String) (constraint : Constraint)
  | domain (fault : DomainFault)
  | divisionByZero
  | invalidUnit (unit family : String)
  | malformed (m : Malformation)
  | insufficient (s : Shortage)
  | unreadable (path : String) (fault : ReadFault)
  | unwritable (text : String)

def Failure.message : Failure → String
  | .validation field constraint => s!"Invalid '{field}': {constraint.message}"
  | .domain fault => s!"Domain error: {fault.message}"
  | .divisionByZero => "Division by zero is not allowed"
  | .invalidUnit unit family => s!"Invalid unit '{unit}' for {family} conversion"
  | .malformed m => s!"Malformed input: {m.message}"
  | .insufficient s => s!"Insufficient data: {s.message}"
  | .unreadable path fault => s!"Failed to read '{path}': {fault.message}"
  | .unwritable text => s!"Serialization failed: {text}"

abbrev Outcome (α : Type) := Except Failure α

/-- A number that is finite; any other is an overflow of the operation `what`. -/
def finite (x : Float) (what : String) : Outcome Float :=
  if x.isFinite then .ok x else .error (.domain (.overflow what))

theorem finite_eq_ok {x y : Float} {what : String} (h : finite x what = .ok y) :
    y = x ∧ x.isFinite = true := by
  unfold finite at h
  split at h
  · next hx => exact ⟨(Except.ok.inj h).symm, hx⟩
  · cases h

end Calculator
