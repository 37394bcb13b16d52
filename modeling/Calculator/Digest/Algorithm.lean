import Calculator.Choice
import Calculator.Digest.Blake2b
import Calculator.Digest.Crc32
import Calculator.Digest.Md5
import Calculator.Digest.Sha1
import Calculator.Digest.Sha2
import Calculator.Digest.Sha3
import Calculator.Encoding.Hex

/-!
# Digest algorithms

The algorithms a caller may choose, and the digest of a message in lower case hexadecimal digits.
-/

namespace Calculator

inductive Algorithm where
  | md5
  | sha1
  | sha256
  | sha512
  | sha3₂₅₆
  | sha3₅₁₂
  | blake2b
  | crc32
deriving DecidableEq, Repr

namespace Algorithm

def all : List Algorithm :=
  [.md5, .sha1, .sha256, .sha512, .sha3₂₅₆, .sha3₅₁₂, .blake2b, .crc32]

def name : Algorithm → String
  | .md5 => "md5"
  | .sha1 => "sha1"
  | .sha256 => "sha256"
  | .sha512 => "sha512"
  | .sha3₂₅₆ => "sha3_256"
  | .sha3₅₁₂ => "sha3_512"
  | .blake2b => "blake2b"
  | .crc32 => "crc32"

instance : Choice Algorithm where
  all := all
  name := name
  mem_all := by intro a; cases a <;> decide
  nodup_names := by decide

def digest : Algorithm → Bytes → Bytes
  | .md5 => Digest.Md5.digest
  | .sha1 => Digest.Sha1.digest
  | .sha256 => Digest.Sha256.digest
  | .sha512 => Digest.Sha512.digest
  | .sha3₂₅₆ => Digest.Sha3.digest 136 4
  | .sha3₅₁₂ => Digest.Sha3.digest 72 8
  | .blake2b => Digest.Blake2b.digest
  | .crc32 => Digest.Crc32.digest

def size : Algorithm → Nat
  | .md5 => 16
  | .sha1 => 20
  | .sha256 => 32
  | .sha512 => 64
  | .sha3₂₅₆ => 32
  | .sha3₅₁₂ => 64
  | .blake2b => 64
  | .crc32 => 4

theorem length_digest (a : Algorithm) (message : Bytes) : (a.digest message).length = a.size := by
  cases a
  · exact Digest.Md5.length_digest message
  · exact Digest.Sha1.length_digest message
  · exact Digest.Sha256.length_digest message
  · exact Digest.Sha512.length_digest message
  · exact Digest.Sha3.length_digest 136 4 message
  · exact Digest.Sha3.length_digest 72 8 message
  · exact Digest.Blake2b.length_digest message
  · exact Digest.Crc32.length_digest message

def hexDigest (a : Algorithm) (message : Bytes) : String :=
  Hex.encodeText (a.digest message)

end Algorithm

end Calculator
