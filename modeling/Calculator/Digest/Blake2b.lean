import Calculator.Digest.Sha2
import Calculator.Power

/-!
# BLAKE2b with a digest of 64 bytes

Eight words of state and eight constants make a square of sixteen words, which twelve rounds mix
with the sixteen words of a block. The count of bytes so far and a mark on the last block enter the
square.
-/

namespace Calculator.Digest.Blake2b

def orders : List (List Nat) := [
  [0, 1, 2, 3, 4, 5, 6, 7, 8, 9, 10, 11, 12, 13, 14, 15],
  [14, 10, 4, 8, 9, 15, 13, 6, 1, 12, 0, 2, 11, 7, 5, 3],
  [11, 8, 12, 0, 5, 2, 15, 13, 10, 14, 3, 6, 7, 1, 9, 4],
  [7, 9, 3, 1, 13, 12, 11, 14, 2, 6, 5, 10, 4, 0, 15, 8],
  [9, 0, 5, 7, 2, 4, 10, 15, 14, 1, 11, 12, 6, 8, 3, 13],
  [2, 12, 6, 10, 0, 11, 8, 3, 4, 13, 7, 5, 15, 14, 1, 9],
  [12, 5, 1, 15, 14, 13, 4, 10, 0, 7, 6, 3, 9, 2, 8, 11],
  [13, 11, 7, 14, 12, 1, 3, 9, 5, 0, 15, 4, 8, 6, 2, 10],
  [6, 15, 14, 9, 11, 3, 0, 8, 12, 2, 13, 7, 1, 4, 10, 5],
  [10, 2, 8, 4, 7, 6, 1, 5, 15, 11, 9, 14, 3, 12, 13, 0]]

def lines : List (Nat × Nat × Nat × Nat) := [
  (0, 4, 8, 12), (1, 5, 9, 13), (2, 6, 10, 14), (3, 7, 11, 15),
  (0, 5, 10, 15), (1, 6, 11, 12), (2, 7, 8, 13), (3, 4, 9, 14)]

def mix (v : Array UInt64) (line : Nat × Nat × Nat × Nat) (x y : UInt64) : Array UInt64 :=
  let (i, j, k, l) := line
  let a := v.getD i 0 + v.getD j 0 + x
  let d := rotateRight64 (v.getD l 0 ^^^ a) 32
  let c := v.getD k 0 + d
  let b := rotateRight64 (v.getD j 0 ^^^ c) 24
  let a := a + b + y
  let d := rotateRight64 (d ^^^ a) 16
  let c := c + d
  let b := rotateRight64 (b ^^^ c) 63
  (((v.setIfInBounds i a).setIfInBounds j b).setIfInBounds k c).setIfInBounds l d

def round (words : Array UInt64) (v : Array UInt64) (order : List Nat) : Array UInt64 :=
  let wordAt (i : Nat) := words.getD (order.getD i 0) 0
  lines.zipIdx.foldl (fun v (line, n) => mix v line (wordAt (2 * n)) (wordAt (2 * n + 1))) v

def compress (h : Array UInt64) (block : Bytes) (count : Nat) (last : Bool) : Array UInt64 :=
  let words := ((littleWords 8 block).map UInt64.ofNat).toArray
  let square := (h ++ Sha512.start.toList.toArray)
    |>.modify 12 (· ^^^ UInt64.ofNat count)
    |>.modify 13 (· ^^^ UInt64.ofNat (count / 2 ^ 64))
    |>.modify 14 (fun w => if last then ~~~w else w)
  let v := (orders ++ orders.take 2).foldl (round words) square
  Array.ofFn fun (i : Fin 8) => h.getD i 0 ^^^ v.getD i 0 ^^^ v.getD (i + 8) 0

/-- The state before the first block, which says that the digest has 64 bytes and there is no
key. -/
def start : Array UInt64 :=
  Sha512.start.toList.toArray.modify 0 (· ^^^ 0x01010040)

def absorb (h : Array UInt64) (count : Nat) : List Bytes → Array UInt64
  | [] => h
  | [block] => compress h (block ++ List.replicate (128 - block.length) 0)
      (count + block.length) true
  | block :: rest => absorb (compress h block (count + 128) false) (count + 128) rest

def digest (message : Bytes) : Bytes :=
  let h := match blocks 128 message with
    | [] => absorb start 0 [[]]
    | bs => absorb start 0 bs
  (List.range 8).flatMap fun i => littleEndian 8 (h.getD i 0).toNat

theorem length_digest (message : Bytes) : (digest message).length = 64 := by
  simp [digest, List.length_flatMap, length_littleEndian, List.map_const']

end Calculator.Digest.Blake2b
