import Calculator.Choice
import Calculator.Failure
import Calculator.Text.Blank
import Calculator.Text.Casing
import Calculator.Units.Rule

/-!
# Units and their families

Temperature, length and weight, each with its units, their names, and their rules relative to the
base unit. A unit is found by any of its names in any letter case, with blanks around it.
-/

namespace Calculator

structure UnitEntry (α : Type) where
  name : String
  aliases : List String
  rule : ConversionRule α

inductive UnitFamily where
  | temperature
  | length
  | weight
deriving DecidableEq, Repr

namespace UnitFamily

def all : List UnitFamily :=
  [.temperature, .length, .weight]

def name : UnitFamily → String
  | .temperature => "temperature"
  | .length => "length"
  | .weight => "weight"

instance : Choice UnitFamily where
  all := all
  name := name
  mem_all := by intro a; cases a <;> decide
  nodup_names := by decide

def baseUnit : UnitFamily → String
  | .temperature => "celsius"
  | .length => "meter"
  | .weight => "gram"

section

variable {α : Type} [OfScientific α] [Neg α]

def temperatureUnits : List (UnitEntry α) := [
  ⟨"celsius", ["c", "°c"], .linear 1.0⟩,
  ⟨"fahrenheit", ["f", "°f"], ⟨-32.0, 5.0, 9.0⟩⟩,
  ⟨"kelvin", ["k"], ⟨-273.15, 1.0, 1.0⟩⟩]

def lengthUnits : List (UnitEntry α) := [
  ⟨"millimeter", ["mm", "millimeters", "millimetre", "millimetres"], .linear 0.001⟩,
  ⟨"centimeter", ["cm", "centimeters", "centimetre", "centimetres"], .linear 0.01⟩,
  ⟨"meter", ["m", "meters", "metre", "metres"], .linear 1.0⟩,
  ⟨"kilometer", ["km", "kilometers", "kilometre", "kilometres"], .linear 1000.0⟩,
  ⟨"inch", ["in", "inches"], .linear 0.0254⟩,
  ⟨"foot", ["ft", "feet"], .linear 0.3048⟩,
  ⟨"yard", ["yd", "yards"], .linear 0.9144⟩,
  ⟨"mile", ["mi", "miles"], .linear 1609.344⟩]

def weightUnits : List (UnitEntry α) := [
  ⟨"milligram", ["mg", "milligrams"], .linear 0.001⟩,
  ⟨"gram", ["g", "grams"], .linear 1.0⟩,
  ⟨"kilogram", ["kg", "kilograms"], .linear 1000.0⟩,
  ⟨"ounce", ["oz", "ounces"], .linear 28.349523125⟩,
  ⟨"pound", ["lb", "lbs", "pounds"], .linear 453.59237⟩,
  ⟨"tonne", ["t", "tonnes", "metric_ton"], .linear 1000000.0⟩]

def units : UnitFamily → List (UnitEntry α)
  | .temperature => temperatureUnits
  | .length => lengthUnits
  | .weight => weightUnits

def resolve (family : UnitFamily) (unit : String) : Outcome (UnitEntry α) :=
  let wanted := Text.lower (Text.trim unit)
  match (units family).find? fun entry => entry.name == wanted || entry.aliases.contains wanted with
  | some entry => .ok entry
  | none => .error (.invalidUnit unit family.name)

end

def unitNames (family : UnitFamily) : List String :=
  (units (α := Float) family).map (·.name)

end UnitFamily

end Calculator
