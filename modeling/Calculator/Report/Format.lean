import Calculator.Choice

/-!
# Forms of an answer

A caller chooses whether a report comes as Markdown or as a document; Markdown is the default.
-/

namespace Calculator

inductive ResponseFormat where
  | markdown
  | json
deriving DecidableEq, Repr

namespace ResponseFormat

def all : List ResponseFormat :=
  [.markdown, .json]

def name : ResponseFormat → String
  | .markdown => "markdown"
  | .json => "json"

instance : Choice ResponseFormat where
  all := all
  name := name
  mem_all := by intro a; cases a <;> decide
  nodup_names := by decide

end ResponseFormat

end Calculator
