import Calculator.Decimal.Nearest
import Calculator.Json.Fault

/-!
# Tokens of a document

Words, numbers and strings, each read from the front of the text. A reader returns what it read and
the rest of the text, or the fault at which it stopped. Reading stops at a character that it looks
at without taking it, or right behind the byte that it took.
-/

namespace Calculator.Json

abbrev Read (α : Type) := List Char → Except Fault (α × List Char)

/-- A fault before the rest `cs`. -/
def faultAt {α : Type} (cs : List Char) (cause : Cause) : Except Fault α :=
  .error ⟨cause, some (Text.byteCount cs)⟩

/-- A fault behind the first byte of the rest `cs`, if there is one. -/
def faultIn {α : Type} (cs : List Char) (cause : Cause) : Except Fault α :=
  .error ⟨cause, some (Text.byteCount cs - 1)⟩

def isSpace (c : Char) : Bool :=
  c == ' ' || c == '\n' || c == '\t' || c == '\r'

def skipSpace (cs : List Char) : List Char :=
  cs.dropWhile isSpace

def readWord : List Char → Read Unit
  | [], cs => .ok ((), cs)
  | _ :: _, [] => faultAt [] .endInValue
  | w :: word, c :: cs => if c = w then readWord word cs else faultIn (c :: cs) .expectedWord

def isDigit (c : Char) : Bool :=
  '0' ≤ c && c ≤ '9'

def digitValue (c : Char) : Nat :=
  c.toNat - '0'.toNat

def digitsValue (start : Nat) (ds : List Char) : Nat :=
  ds.foldl (fun n c => n * 10 + digitValue c) start

def exponentLimit : Nat := 2 ^ 31 - 1

/-- Reads the digits of an exponent after its value so far. One beyond the limit leaves no number in
range, unless the number is zero or the exponent negative. -/
def readExponentDigits (negative exponentNegative : Bool) (digits : Nat) (exponent : Int) :
    Nat → Read Json
  | value, [] => finish value []
  | value, c :: cs =>
    if isDigit c then
      let value := value * 10 + digitValue c
      if value ≤ exponentLimit then
        readExponentDigits negative exponentNegative digits exponent value cs
      else if digits ≠ 0 ∧ exponentNegative = false then faultAt cs .numberOutOfRange
      else .ok (.float (Binary64.floatOfPattern negative 0), cs.dropWhile isDigit)
    else finish value (c :: cs)
where
  finish (value : Nat) (cs : List Char) : Except Fault (Json × List Char) :=
    let e : Int := if exponentNegative then exponent - value else exponent + value
    match Decimal.nearest? negative ⟨digits, e⟩ with
    | some x => .ok (.float x, cs)
    | none => faultAt cs .numberOutOfRange

def readExponent (negative : Bool) (digits : Nat) (exponent : Int) : Read Json := fun cs =>
  let (exponentNegative, cs) := match cs with
    | '+' :: rest => (false, rest)
    | '-' :: rest => (true, rest)
    | _ => (false, cs)
  match cs with
  | [] => faultAt [] .endInValue
  | c :: rest =>
    if isDigit c then readExponentDigits negative exponentNegative digits exponent
      (digitValue c) rest
    else faultIn (c :: rest) .invalidNumber

def readScale (negative : Bool) (digits : Nat) (exponent : Int) : Read Json := fun cs =>
  match cs with
  | 'e' :: rest => readExponent negative digits exponent rest
  | 'E' :: rest => readExponent negative digits exponent rest
  | _ =>
    match Decimal.nearest? negative ⟨digits, exponent⟩ with
    | some x => .ok (.float x, cs)
    | none => faultAt cs .numberOutOfRange

def readFraction (negative : Bool) (digits : Nat) : Read Json := fun cs =>
  let fraction := cs.takeWhile isDigit
  let rest := cs.dropWhile isDigit
  if fraction.isEmpty then
    if cs.isEmpty then faultAt cs .endInValue else faultIn cs .invalidNumber
  else readScale negative (digitsValue digits fraction) (-fraction.length) rest

/-- Reads what follows the whole digits of a number. A whole number that fits 64 bits stays one; the
negative zero is a floating number. -/
def readAfterDigits (negative : Bool) (digits : Nat) : Read Json := fun cs =>
  match cs with
  | '.' :: rest => readFraction negative digits rest
  | 'e' :: rest => readExponent negative digits 0 rest
  | 'E' :: rest => readExponent negative digits 0 rest
  | _ =>
    match Whole.ofInt? (if negative then -digits else digits) with
    | some n =>
      if negative ∧ digits = 0 then .ok (.float (Binary64.floatOfPattern true 0), cs)
      else .ok (.whole n, cs)
    | none => readScale negative digits 0 cs

def readNumber (negative : Bool) : Read Json := fun cs =>
  match cs with
  | [] => faultAt [] .endInValue
  | c :: rest =>
    if c = '0' then
      match rest with
      | d :: _ => if isDigit d then faultIn rest .invalidNumber else readAfterDigits negative 0 rest
      | [] => readAfterDigits negative 0 rest
    else if isDigit c then
      readAfterDigits negative (digitsValue 0 (cs.takeWhile isDigit)) (cs.dropWhile isDigit)
    else faultIn cs .invalidNumber

def hexValue? (c : Char) : Option Nat :=
  if '0' ≤ c && c ≤ '9' then some (c.toNat - '0'.toNat)
  else if 'a' ≤ c && c ≤ 'f' then some (c.toNat - 'a'.toNat + 10)
  else if 'A' ≤ c && c ≤ 'F' then some (c.toNat - 'A'.toNat + 10)
  else none

def hexUnit? : List Char → Option Nat
  | [a, b, c, d] => do
    let a ← hexValue? a
    let b ← hexValue? b
    let c ← hexValue? c
    let d ← hexValue? d
    return ((a * 16 + b) * 16 + c) * 16 + d
  | _ => none

def readHexUnit : Read Nat := fun cs =>
  if Text.byteCount (cs.take 4) < 4 then faultAt [] .endInString
  else
    match hexUnit? (cs.take 4) with
    | some n => .ok (n, cs.drop 4)
    | none => .error ⟨.invalidEscape, some (Text.byteCount cs - 4)⟩

def pairChar (high low : Nat) : Char :=
  Char.ofNat ((high - 0xD800) * 0x400 + (low - 0xDC00) + 0x10000)

def readPairChar (expected : Char) : Read Unit
  | [] => faultAt [] .endInString
  | c :: cs => if c = expected then .ok ((), cs) else faultIn (c :: cs) .endOfHexEscape

def readHexEscape : Read Char := fun cs => do
  let (n, cs) ← readHexUnit cs
  if 0xDC00 ≤ n && n ≤ 0xDFFF then faultAt cs .loneSurrogate
  else if 0xD800 ≤ n && n ≤ 0xDBFF then
    let ((), cs) ← readPairChar '\\' cs
    let ((), cs) ← readPairChar 'u' cs
    let (m, cs) ← readHexUnit cs
    if 0xDC00 ≤ m && m ≤ 0xDFFF then .ok (pairChar n m, cs) else faultAt cs .loneSurrogate
  else .ok (Char.ofNat n, cs)

def shortEscape? : Char → Option Char
  | '"' => some '"'
  | '\\' => some '\\'
  | '/' => some '/'
  | 'b' => some '\x08'
  | 'f' => some '\x0c'
  | 'n' => some '\n'
  | 'r' => some '\r'
  | 't' => some '\t'
  | _ => none

def readEscape : Read Char
  | [] => faultAt [] .endInString
  | c :: cs =>
    match shortEscape? c with
    | some e => .ok (e, cs)
    | none => if c = 'u' then readHexEscape cs else faultIn (c :: cs) .invalidEscape

/-- Reads the characters up to the closing quote behind those in `done`, which are in reverse. Every
step takes a character, so fuel beyond the length of the text is never used up. -/
def readChars : (fuel : Nat) → (done : List Char) → Read (List Char)
  | 0, _, cs => faultAt cs .endInString
  | _ + 1, _, [] => faultAt [] .endInString
  | fuel + 1, done, c :: cs =>
    if c = '"' then .ok (done.reverse, cs)
    else if c = '\\' then do
      let (e, cs) ← readEscape cs
      readChars fuel (e :: done) cs
    else if c.toNat < 0x20 then faultIn (c :: cs) .controlCharacter
    else readChars fuel (c :: done) cs

def readString (fuel : Nat) : Read String := fun cs => do
  let (chars, rest) ← readChars fuel [] cs
  return (String.ofList chars, rest)

end Calculator.Json
