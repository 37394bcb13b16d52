import Calculator.Tool.Choices

/-!
# Tools

The eight tools that callers know by name, with their descriptions and parameters.
-/

namespace Calculator

inductive Tool where
  | arithmetic
  | advancedMath
  | trigonometry
  | statistics
  | conversion
  | hash
  | comparison
  | batchHash
deriving DecidableEq, Repr

namespace Tool

def all : List Tool :=
  [.arithmetic, .advancedMath, .trigonometry, .statistics, .conversion,
    .hash, .comparison, .batchHash]

def name : Tool → String
  | .arithmetic => "calculator_basic_operation"
  | .advancedMath => "calculator_advanced_math"
  | .trigonometry => "calculator_trigonometric"
  | .statistics => "calculator_statistics"
  | .conversion => "calculator_unit_conversion"
  | .hash => "calculator_hash_calculation"
  | .comparison => "calculator_hash_comparison"
  | .batchHash => "calculator_batch_hash"

instance : Choice Tool where
  all := all
  name := name
  mem_all := by intro a; cases a <;> decide
  nodup_names := by decide

def description : Tool → String
  | .arithmetic =>
    "Perform basic arithmetic on two numbers: add, subtract, multiply or divide. " ++
      "Division by zero is rejected."
  | .advancedMath =>
    "Advanced math on a single value: power (needs exponent), sqrt, cbrt, ceil, floor, " ++
      "round (optional decimals), abs, log, log10, log2, exp, factorial."
  | .trigonometry =>
    "Evaluate sin, cos, tan, asin, acos or atan. Angles are in degrees unless use_radians is " ++
      "true; inverse functions return an angle in the same unit."
  | .statistics =>
    "Descriptive statistics over a list of numbers: mean, median, mode, stdev and variance " ++
      "(sample), pstdev and pvariance (population), sum, min, max, range, or " ++
      "summary for all of them."
  | .conversion =>
    "Convert a value between units of the same family. Temperature: celsius, fahrenheit, " ++
      "kelvin. Length: millimeter, centimeter, meter, kilometer, inch, foot, yard, mile. " ++
      "Weight: milligram, gram, kilogram, ounce, pound, tonne. " ++
      "Abbreviations such as c, m, ft, kg, lb are accepted."
  | .hash =>
    "Calculate a digest (md5, sha1, sha256, sha512, sha3_256, sha3_512, blake2b, crc32) " ++
      "of text, a file, base64 or hex data. Optional json or text normalization makes the " ++
      "digest insensitive to key order or whitespace."
  | .comparison =>
    "Calculate a digest of text, a file, base64 or hex data and compare it (case-insensitively) " ++
      "with an expected hex digest."
  | .batchHash =>
    "Calculate digests for a list of inputs with one algorithm. Results keep the input order; " ++
      "an input that cannot be hashed gets an error entry without failing the others."

def parametersTitle : Tool → String × String
  | .arithmetic => ("BasicOperationParams", "Parameters for the basic operation tool.")
  | .advancedMath => ("AdvancedMathParams", "Parameters for the advanced math tool.")
  | .trigonometry => ("TrigonometricParams", "Parameters for the trigonometric tool.")
  | .statistics => ("StatisticsParams", "Parameters for the statistics tool.")
  | .conversion => ("UnitConversionParams", "Parameters for the unit conversion tool.")
  | .hash => ("HashCalculationParams", "Parameters for the hash calculation tool.")
  | .comparison => ("HashComparisonParams", "Parameters for the hash comparison tool.")
  | .batchHash => ("BatchHashParams", "Parameters for the batch hash tool.")

def formatParameter : Parameter :=
  ⟨"response_format", .choice ResponseFormat.description, .default (.string "markdown"),
    "Output format: \"markdown\" (default) or \"json\"."⟩

def normalizationParameter : Parameter :=
  ⟨"normalization", .choice Normalization.description, .default (.string "none"),
    "Normalization applied before hashing (default \"none\")."⟩

def hashParameters : List Parameter := [
  ⟨"algorithm", .choice Algorithm.description, .required, "Digest algorithm."⟩,
  ⟨"input_type", .choice InputType.description, .required, "How to interpret `input_data`."⟩,
  ⟨"input_data", .text, .required,
    "Text, file path, base64 or hex data depending on `input_type`.\n" ++
      "Surrounding whitespace is stripped."⟩]

def parameters : Tool → List Parameter
  | .arithmetic => [
    ⟨"operation", .choice BasicOperation.description, .required,
      "Arithmetic operation to perform."⟩,
    ⟨"a", .number, .required, "First operand."⟩,
    ⟨"b", .number, .required, "Second operand."⟩,
    formatParameter]
  | .advancedMath => [
    ⟨"operation", .choice AdvancedOperation.description, .required, "Operation to perform."⟩,
    ⟨"value", .number, .required, "Input value."⟩,
    ⟨"exponent", .number, .nullable, "Exponent, required when operation is \"power\"."⟩,
    ⟨"decimals", .natural maxDecimals, .nullable,
      "Number of decimals for \"round\" (0-15, default 0)."⟩,
    formatParameter]
  | .trigonometry => [
    ⟨"operation", .choice TrigOperation.description, .required, "Function to evaluate."⟩,
    ⟨"angle", .number, .required, "Angle for sin/cos/tan, or ratio for asin/acos/atan."⟩,
    ⟨"use_radians", .switch, .default (.bool false),
      "Interpret and return angles in radians instead of degrees."⟩,
    formatParameter]
  | .statistics => [
    ⟨"operation", .choice StatisticsOperation.description, .required, "Statistic to compute."⟩,
    ⟨"values", .numbers, .required, "Data set."⟩,
    formatParameter]
  | .conversion => [
    ⟨"unit_type", .choice UnitFamily.description, .required,
      "Unit family: \"temperature\", \"length\" or \"weight\"."⟩,
    ⟨"value", .number, .required, "Value to convert."⟩,
    ⟨"from_unit", .text, .required, "Source unit, e.g. \"celsius\", \"meter\", \"kg\"."⟩,
    ⟨"to_unit", .text, .required, "Target unit, from the same family as `from_unit`."⟩,
    formatParameter]
  | .hash => hashParameters ++ [normalizationParameter, formatParameter]
  | .comparison => hashParameters ++ [
    ⟨"expected_hash", .text, .required,
      "Expected digest in hex; case and surrounding whitespace are ignored."⟩,
    normalizationParameter, formatParameter]
  | .batchHash => [
    ⟨"algorithm", .choice Algorithm.description, .required,
      "Digest algorithm applied to every input."⟩,
    ⟨"input_type", .choice InputType.description, .required,
      "How to interpret each entry of `input_list`."⟩,
    ⟨"input_list", .texts, .required, "Inputs to hash, processed in order."⟩,
    normalizationParameter, formatParameter]

def listing (tool : Tool) : Json :=
  let (title, about) := tool.parametersTitle
  .ofMembers [
    ("name", .string tool.name),
    ("description", .string tool.description),
    ("inputSchema", Parameter.objectSchema title about tool.parameters)]

def sortedByName : List Tool :=
  [.advancedMath, .arithmetic, .batchHash, .hash, .comparison, .statistics,
    .trigonometry, .conversion]

theorem sortedByName_perm_all : sortedByName.Perm all := by decide

theorem sortedByName_pairwise : sortedByName.Pairwise fun a b => a.name < b.name := by decide

end Tool

end Calculator
