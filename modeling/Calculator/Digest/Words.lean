import Calculator.Text.Utf8

/-!
# Words and blocks

What the digests share: rotating words, cutting a message into blocks, writing words as bytes with
the first or the last byte first, and closing a message with a mark, zeros and its length.
-/

namespace Calculator.Digest

def rotateLeft32 (x n : UInt32) : UInt32 :=
  x <<< n ||| x >>> (32 - n)

def rotateRight32 (x n : UInt32) : UInt32 :=
  x >>> n ||| x <<< (32 - n)

def rotateLeft64 (x n : UInt64) : UInt64 :=
  if n = 0 then x else x <<< n ||| x >>> (64 - n)

def rotateRight64 (x n : UInt64) : UInt64 :=
  x >>> n ||| x <<< (64 - n)

def littleEndian : (count n : Nat) → Bytes
  | 0, _ => []
  | count + 1, n => UInt8.ofNat (n % 256) :: littleEndian count (n / 256)

theorem length_littleEndian (count n : Nat) : (littleEndian count n).length = count := by
  induction count generalizing n with
  | zero => rfl
  | succ count ih => simp [littleEndian, ih]

def bigEndian (count n : Nat) : Bytes :=
  (littleEndian count n).reverse

theorem length_bigEndian (count n : Nat) : (bigEndian count n).length = count := by
  simp [bigEndian, length_littleEndian]

def numberOfBytes (bytes : Bytes) : Nat :=
  bytes.foldl (fun n b => n * 256 + b.toNat) 0

def blocks (size : Nat) (message : Bytes) : List Bytes :=
  if h : message = [] ∨ size = 0 then []
  else
    have : (message.drop size).length < message.length := by
      have := List.length_pos_iff.2 (not_or.1 h).1
      simp only [List.length_drop]
      omega
    message.take size :: blocks size (message.drop size)
termination_by message.length

def bigWords (size : Nat) (block : Bytes) : List Nat :=
  (blocks size block).map numberOfBytes

def littleWords (size : Nat) (block : Bytes) : List Nat :=
  (blocks size block).map fun word => numberOfBytes word.reverse

def close (block : Nat) (lengthBytes : Bytes) (message : Bytes) : Bytes :=
  let used := (message.length + 1 + lengthBytes.length) % block
  message ++ 0x80 :: List.replicate ((block - used) % block) 0 ++ lengthBytes

end Calculator.Digest
