import Calculator.Digest.Words

/-!
# SHA-3

A sponge over twenty-five words. A message is closed by the bits `011` and a final one, and its
blocks are added to the first words of the state, with a permutation after each.
-/

namespace Calculator.Digest.Sha3

abbrev State := Array UInt64

def constants : List UInt64 := [
  0x0000000000000001, 0x0000000000008082, 0x800000000000808a, 0x8000000080008000,
  0x000000000000808b, 0x0000000080000001, 0x8000000080008081, 0x8000000000008009,
  0x000000000000008a, 0x0000000000000088, 0x0000000080008009, 0x000000008000000a,
  0x000000008000808b, 0x800000000000008b, 0x8000000000008089, 0x8000000000008003,
  0x8000000000008002, 0x8000000000000080, 0x000000000000800a, 0x800000008000000a,
  0x8000000080008081, 0x8000000000008080, 0x0000000080000001, 0x8000000080008008]

def offsets : List UInt64 := [
  0, 1, 62, 28, 27, 36, 44, 6, 55, 20, 3, 10, 43,
  25, 39, 41, 45, 15, 21, 8, 18, 2, 61, 56, 14]

def word (s : State) (x y : Nat) : UInt64 :=
  s.getD (x % 5 + 5 * (y % 5)) 0

def build (f : Nat → Nat → UInt64) : State :=
  Array.ofFn fun (i : Fin 25) => f (i.val % 5) (i.val / 5)

def theta (s : State) : State :=
  let parity := Array.ofFn fun (x : Fin 5) =>
    word s x 0 ^^^ word s x 1 ^^^ word s x 2 ^^^ word s x 3 ^^^ word s x 4
  build fun x y =>
    word s x y ^^^ parity.getD ((x + 4) % 5) 0 ^^^ rotateLeft64 (parity.getD ((x + 1) % 5) 0) 1

def rhoPi (s : State) : State :=
  let turned := (s.toList.zip offsets).map (fun (w, n) => rotateLeft64 w n) |>.toArray
  build fun x y => word turned (x + 3 * y) x

def chi (s : State) : State :=
  build fun x y => word s x y ^^^ (~~~word s (x + 1) y &&& word s (x + 2) y)

def round (s : State) (k : UInt64) : State :=
  (chi (rhoPi (theta s))).modify 0 (· ^^^ k)

def permute (s : State) : State :=
  constants.foldl round s

def absorb (s : State) (block : Bytes) : State :=
  let words := (littleWords 8 block).map UInt64.ofNat
  permute (words.zipIdx.foldl (fun s (w, i) => s.modify i (· ^^^ w)) s)

def pad (rate : Nat) (message : Bytes) : Bytes :=
  let missing := rate - message.length % rate
  if missing = 1 then message ++ [0x86]
  else message ++ 0x06 :: List.replicate (missing - 2) 0 ++ [0x80]

def digest (rate words : Nat) (message : Bytes) : Bytes :=
  let s := (blocks rate (pad rate message)).foldl absorb (Array.replicate 25 0)
  (List.range words).flatMap fun i => littleEndian 8 (s.getD i 0).toNat

theorem length_digest (rate words : Nat) (message : Bytes) :
    (digest rate words message).length = 8 * words := by
  simp [digest, List.length_flatMap, length_littleEndian, List.map_const', Nat.mul_comm]

end Calculator.Digest.Sha3
