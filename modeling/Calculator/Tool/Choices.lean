import Calculator.Arithmetic
import Calculator.Digest.Algorithm
import Calculator.Elementary
import Calculator.Hashing.Source
import Calculator.Normalization
import Calculator.Report.Format
import Calculator.Statistics
import Calculator.Tool.Parameter
import Calculator.Trigonometry
import Calculator.Units.Family

/-!
# What the choices mean

The description of every choice that a caller makes by name, with a note where the name does not
speak for itself.
-/

namespace Calculator

def BasicOperation.description : ChoiceDescription :=
  .of BasicOperation "BasicOperation" "Basic arithmetic operation." fun _ => none

def AdvancedOperation.note : AdvancedOperation → Option String
  | .power => some "`value` raised to `exponent`."
  | .round => some "Round half to even, to `decimals` places."
  | .log => some "Natural logarithm."
  | _ => none

def AdvancedOperation.description : ChoiceDescription :=
  .of AdvancedOperation "AdvancedOperation" "Advanced math operation." AdvancedOperation.note

def TrigOperation.description : ChoiceDescription :=
  .of TrigOperation "TrigOperation" "Trigonometric operation." fun _ => none

def StatisticsOperation.note : StatisticsOperation → Option String
  | .single .stdev => some "Sample standard deviation."
  | .single .variance => some "Sample variance."
  | .single .pstdev => some "Population standard deviation."
  | .single .pvariance => some "Population variance."
  | .summary => some "Every statistic at once."
  | _ => none

def StatisticsOperation.description : ChoiceDescription :=
  .of StatisticsOperation "StatisticsOperation" "Statistical operation." StatisticsOperation.note

def UnitFamily.description : ChoiceDescription :=
  .of UnitFamily "UnitFamily" "Family of mutually convertible units." fun _ => none

def Algorithm.note : Algorithm → Option String
  | .blake2b => some "BLAKE2b with a 512-bit digest."
  | .crc32 => some "CRC-32 checksum, rendered as 8 hex characters."
  | _ => none

def Algorithm.description : ChoiceDescription :=
  .of Algorithm "HashAlgorithm" "Supported digest algorithms." Algorithm.note

def InputType.note : InputType → Option String
  | .text => some "Literal text, hashed as UTF-8."
  | .file => some "Path to a file whose contents are hashed."
  | .base64 => some "Base64-encoded bytes."
  | .hex => some "Hex-encoded bytes."

def InputType.description : ChoiceDescription :=
  .of InputType "InputType" "How `input_data` should be interpreted." InputType.note

def Normalization.note : Normalization → Option String
  | .none => Option.none
  | .json => some "Parse as JSON and re-serialize with sorted keys, no whitespace."
  | .text => some "Trim, unify line endings and collapse blank lines and space runs."

def Normalization.description : ChoiceDescription :=
  .of Normalization "Normalization" "Normalization applied before hashing." Normalization.note

def ResponseFormat.note : ResponseFormat → Option String
  | .markdown => some "Human-readable Markdown."
  | .json => some "Pretty-printed JSON record."

def ResponseFormat.description : ChoiceDescription :=
  .of ResponseFormat "ResponseFormat" "Output format selected by the caller." ResponseFormat.note

end Calculator
