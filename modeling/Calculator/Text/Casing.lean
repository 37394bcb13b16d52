import Calculator.Text.CaseTable

/-!
# Letter case

Small and capital forms of a character. A character outside the tables is its own form in both
cases, and only a few capital forms (and one small form) need more than one character.
-/

namespace Calculator.Text

def mapCase (runs : List CaseRun) (c : Char) : Char :=
  match runs.find? (·.contains c.toNat) with
  | some run => Char.ofNat (c.toNat + run.shift).toNat
  | none => c

def lowerChar (c : Char) : List Char :=
  if c = 'İ' then ['i', Char.ofNat 0x307]
  else [mapCase lowerRuns c]

def upperChar (c : Char) : List Char :=
  match wideCapitals.find? (·.1 == c.toNat) with
  | some (_, codes) => codes.map Char.ofNat
  | none => [mapCase upperRuns c]

def lower (s : String) : String :=
  String.ofList (s.toList.flatMap lowerChar)

def capitalize : List Char → List Char
  | [] => []
  | c :: cs => upperChar c ++ cs.flatMap lowerChar

end Calculator.Text
