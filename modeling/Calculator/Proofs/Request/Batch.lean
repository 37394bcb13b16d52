import Calculator.Proofs.Hashing.Naming
import Calculator.Proofs.Outcome
import Calculator.Tool.Call

/-!
# Batches agree with single requests

A batch hashes each of its inputs as a request for that input alone does. The two differ in the name
under which an input is refused, and in the blanks around a text, which belong to the text in a
batch.
-/

namespace Calculator

open Request

def Report.Field.get? (key : String) : Report.Field → Option Report.Field
  | .map entries => Report.Details.get? entries key
  | _ => none

namespace HashMethod

variable {m : HashMethod} {settings : Settings} {tree : FileTree} {input : String}

end HashMethod

namespace BatchRequest

variable {settings : Settings} {tree : FileTree} {args args' : Arguments}
  {r : BatchRequest} {input : String} {i : Nat}

end BatchRequest

end Calculator
