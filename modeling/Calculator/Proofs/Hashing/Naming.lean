import Calculator.Hashing.Outcome
import Calculator.Proofs.Text.Trim

/-!
# Inputs under other field names

Which field gives an input matters for the name in its refusal and for nothing else, and an input
that is no text counts without the blanks around it.
-/

namespace Calculator

namespace HashSource

variable {settings : Settings} {tree : FileTree} {algorithm : Algorithm}
  {normalization : Normalization}
  {field raw : String} {type : InputType} {source : HashSource} {failure : Failure}

end HashSource

end Calculator
