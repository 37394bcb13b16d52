import Calculator.Text.Quoted
import Calculator.Text.Utf8

/-!
# Hexadecimal text

Two digits for each byte, written in lower case and read in either case. Reading counts the bytes of
the text first, so an odd number of digits is found before a byte that is no digit.
-/

namespace Calculator.Hex

def digitChar (n : Nat) : Char :=
  if n < 10 then Char.ofNat ('0'.toNat + n) else Char.ofNat ('a'.toNat + (n - 10))

def encodeByte (b : UInt8) : List Char :=
  [digitChar (b.toNat / 16), digitChar (b.toNat % 16)]

def encode (bytes : Bytes) : List Char :=
  bytes.flatMap encodeByte

theorem encode_cons (b : UInt8) (bytes : Bytes) :
    encode (b :: bytes) = encodeByte b ++ encode bytes := rfl

theorem length_encode (bytes : Bytes) : (encode bytes).length = 2 * bytes.length := by
  induction bytes with
  | nil => rfl
  | cons b bytes ih => simp [encode_cons, encodeByte, ih]; omega

def encodeText (bytes : Bytes) : String :=
  String.ofList (encode bytes)

inductive Fault where
  | oddLength
  | notDigit (b : UInt8) (index : Nat)
deriving DecidableEq, Repr

def Fault.message : Fault → String
  | .oddLength => "Odd number of digits"
  | .notDigit b index =>
    let character := Text.quoted '\'' [Char.ofNat b.toNat]
    s!"Invalid character {character} at position {index}"

def digitValue? (b : UInt8) : Option Nat :=
  let n := b.toNat
  if 0x30 ≤ n && n ≤ 0x39 then some (n - 0x30)
  else if 0x41 ≤ n && n ≤ 0x46 then some (n - 0x41 + 10)
  else if 0x61 ≤ n && n ≤ 0x66 then some (n - 0x61 + 10)
  else none

def isDigit (b : UInt8) : Bool :=
  (digitValue? b).isSome

def digitAt (index : Nat) (b : UInt8) : Except Fault Nat :=
  match digitValue? b with
  | some n => .ok n
  | none => .error (.notDigit b index)

def decodePairs (index : Nat) : Bytes → Except Fault Bytes
  | a :: b :: rest => do
    let high ← digitAt index a
    let low ← digitAt (index + 1) b
    let bytes ← decodePairs (index + 2) rest
    return UInt8.ofNat (high * 16 + low) :: bytes
  | _ => .ok []

def decode (text : Bytes) : Except Fault Bytes :=
  if text.length % 2 = 1 then .error .oddLength else decodePairs 0 text

end Calculator.Hex
