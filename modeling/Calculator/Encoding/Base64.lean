import Calculator.Text.Utf8

/-!
# Base64 text

The standard alphabet with padding. Every byte sequence has one spelling: the padding must be there,
and the bits that the last symbol has to spare must be zero. Reading takes the text in groups of
four symbols; only the last group, whole or not, may hold padding.
-/

namespace Calculator.Base64

def padding : UInt8 := 0x3D

def alphabet : List Char :=
  "ABCDEFGHIJKLMNOPQRSTUVWXYZabcdefghijklmnopqrstuvwxyz0123456789+/".toList

def symbol (n : Nat) : Char :=
  alphabet.getD n 'A'

def encode : Bytes → List Char
  | a :: b :: c :: rest =>
    let n := (a.toNat * 256 + b.toNat) * 256 + c.toNat
    symbol (n / 262144) :: symbol (n / 4096 % 64) :: symbol (n / 64 % 64) :: symbol (n % 64) ::
      encode rest
  | [a, b] =>
    let n := (a.toNat * 256 + b.toNat) * 4
    [symbol (n / 4096), symbol (n / 64 % 64), symbol (n % 64), '=']
  | [a] =>
    let n := a.toNat * 16
    [symbol (n / 64), symbol (n % 64), '=', '=']
  | [] => []

inductive Fault where
  | invalidSymbol (b : UInt8) (offset : Nat)
  | invalidLastSymbol (b : UInt8) (offset : Nat)
  | invalidPadding
  | invalidLength (symbols : Nat)
deriving DecidableEq, Repr

def Fault.message : Fault → String
  | .invalidSymbol b offset => s!"Invalid symbol {b.toNat}, offset {offset}."
  | .invalidLastSymbol b offset => s!"Invalid last symbol {b.toNat}, offset {offset}."
  | .invalidPadding => "Invalid padding"
  | .invalidLength symbols => s!"Invalid input length: {symbols}"

def symbolValue? (b : UInt8) : Option Nat :=
  let n := b.toNat
  if 0x41 ≤ n && n ≤ 0x5A then some (n - 0x41)
  else if 0x61 ≤ n && n ≤ 0x7A then some (n - 0x61 + 26)
  else if 0x30 ≤ n && n ≤ 0x39 then some (n - 0x30 + 52)
  else if n = 0x2B then some 62
  else if n = 0x2F then some 63
  else none

def symbolAt (offset : Nat) (b : UInt8) : Except Fault Nat :=
  match symbolValue? b with
  | some n => .ok n
  | none => .error (.invalidSymbol b offset)

def symbolValues (offset : Nat) : Bytes → Except Fault (List Nat)
  | [] => .ok []
  | b :: rest => do
    let n ← symbolAt offset b
    let ns ← symbolValues (offset + 1) rest
    return n :: ns

def bytesOfSextets : List Nat → Bytes
  | a :: b :: c :: d :: rest =>
    let n := ((a * 64 + b) * 64 + c) * 64 + d
    UInt8.ofNat (n / 65536) :: UInt8.ofNat (n / 256 % 256) :: UInt8.ofNat (n % 256) ::
      bytesOfSextets rest
  | [a, b, c] =>
    let n := (a * 64 + b) * 64 + c
    [UInt8.ofNat (n / 1024), UInt8.ofNat (n / 4 % 256)]
  | [a, b] => [UInt8.ofNat ((a * 64 + b) / 16)]
  | _ => []

/-- Whether a last group leaves bits unused that are not zero. -/
def hasSpareBits : List Nat → Bool
  | [_, _, c] => c % 4 != 0
  | [_, b] => b % 16 != 0
  | _ => false

def decodeLast (offset : Nat) (group : Bytes) : Except Fault (List Nat) := do
  let symbols := group.takeWhile (· != padding)
  let fill := group.dropWhile (· != padding)
  let sextets ← symbolValues offset symbols
  if fill ≠ [] ∧ (symbols.length < 2 ∨ fill.any (· != padding)) then
    .error (.invalidSymbol padding (offset + symbols.length))
  else if symbols.length < 2 then .error (.invalidLength (offset + symbols.length))
  else if (symbols.length + fill.length) % 4 ≠ 0 then .error .invalidPadding
  else if hasSpareBits sextets then
    .error (.invalidLastSymbol (symbols.getLastD 0) (offset + symbols.length - 1))
  else .ok sextets

def frontLength (n : Nat) : Nat :=
  if n % 4 = 0 then n - 4 else n - n % 4

/-- A last byte that stands alone and belongs to no base64 text is reported before all else. -/
def strayByte? (text : Bytes) : Option UInt8 :=
  if text.length % 4 = 1 then
    text.getLast?.filter fun b => b != padding && (symbolValue? b).isNone
  else none

def decode (text : Bytes) : Except Fault Bytes :=
  if text = [] then .ok []
  else
    match strayByte? text with
    | some b => .error (.invalidSymbol b (text.length - 1))
    | none => do
      let front := frontLength text.length
      let sextets ← symbolValues 0 (text.take front)
      let last ← decodeLast front (text.drop front)
      return bytesOfSextets (sextets ++ last)

end Calculator.Base64
