import Calculator.Choice
import Calculator.Failure
import Calculator.Json.Reader
import Calculator.Json.Writer
import Calculator.Text.Blank

/-!
# Normal forms of data

Data may be brought into a normal form before it is hashed, so that texts which differ only in
spelling have one digest. The JSON form writes the value of a document canonically. The text form
trims blanks, writes every line ending as a newline, keeps at most one blank line between lines of
text, and keeps at most one space between words.
-/

namespace Calculator

inductive Normalization where
  | none
  | json
  | text
deriving DecidableEq, Repr

namespace Normalization

def all : List Normalization :=
  [.none, .json, .text]

def name : Normalization → String
  | .none => "none"
  | .json => "json"
  | .text => "text"

instance : Choice Normalization where
  all := all
  name := name
  mem_all := by intro a; cases a <;> decide
  nodup_names := by decide

def normalizeJson (text : List Char) : Outcome (List Char) :=
  match Json.parse text with
  | .ok v => .ok (v.write .canonical)
  | .error fault => .error (.malformed (.json text fault))

theorem normalizeJson_eq_ok_iff {text out : List Char} :
    normalizeJson text = .ok out ↔ ∃ v, Json.parse text = .ok v ∧ out = v.write .canonical := by
  unfold normalizeJson
  cases Json.parse text with
  | error _ => simp
  | ok v => simp [eq_comm]

/-- Every line ending as one newline: a carriage return ends a line together with a newline after
it. -/
def unifyLines : List Char → List Char
  | [] => []
  | '\r' :: '\n' :: cs => '\n' :: unifyLines cs
  | c :: cs => (if c = '\r' then '\n' else c) :: unifyLines cs

theorem unifyLines_nil : unifyLines [] = [] := by
  simp [unifyLines]

/-- Cuts every run of `x` to its first `most` characters, where `seen` of the run are already
kept. -/
def limitRuns (x : Char) (most : Nat) : (seen : Nat) → List Char → List Char
  | _, [] => []
  | seen, c :: cs =>
    if c = x then
      if seen < most then c :: limitRuns x most (seen + 1) cs else limitRuns x most seen cs
    else c :: limitRuns x most 0 cs

def normalizeText (text : List Char) : List Char :=
  limitRuns ' ' 1 0 (limitRuns '\n' 2 0 (unifyLines (Text.trimChars text)))

/-- Brings bytes into normal form. Bytes that are no text are dropped from a text first. -/
def apply (normalization : Normalization) (bytes : Bytes) : Outcome Bytes :=
  match normalization with
  | .none => .ok bytes
  | .json => Text.encode <$> normalizeJson (Text.decodeLossy bytes)
  | .text => .ok (Text.encode (normalizeText (Text.decodeLossy bytes)))

end Normalization

end Calculator
