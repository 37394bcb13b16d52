import Calculator.Failure
import Calculator.Text.Blank
import Calculator.Text.Casing

/-!
# Digests to compare with

An expected digest is given in hexadecimal digits of either case with blanks around them. It is kept
in lower case, and two digests match when they differ in case and surrounding blanks only.
-/

namespace Calculator

def isLowerHexDigit (c : Char) : Bool :=
  c.isDigit || ('a' ≤ c && c ≤ 'f')

def expectedHash (raw : String) : Outcome String :=
  let digits := Text.lower (Text.trim raw)
  if digits.isEmpty || !digits.toList.all isLowerHexDigit then
    .error (.validation "expected_hash" .hexDigest)
  else .ok digits

def digestsMatch (a b : String) : Bool :=
  (Text.trimChars a.toList).map Char.toLower == (Text.trimChars b.toList).map Char.toLower

end Calculator
