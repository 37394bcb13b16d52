import Calculator.Digest.Words

/-!
# CRC-32

The remainder of a message under the reflected polynomial `0xEDB88320`, with the register inverted
before and after. The remainder of each byte is looked up in a table.
-/

namespace Calculator.Digest.Crc32

def shift (r : UInt32) : UInt32 :=
  if r &&& 1 = 1 then r >>> 1 ^^^ 0xedb88320 else r >>> 1

def remainder (b : UInt32) : UInt32 :=
  Nat.repeat shift 8 b

def table : Array UInt32 :=
  Array.ofFn fun (i : Fin 256) => remainder (UInt32.ofNat i)

def step (r : UInt32) (b : UInt8) : UInt32 :=
  table.getD ((r ^^^ b.toUInt32) &&& 0xff).toNat 0 ^^^ r >>> 8

def checksum (message : Bytes) : UInt32 :=
  ~~~(message.foldl step 0xffffffff)

def digest (message : Bytes) : Bytes :=
  bigEndian 4 (checksum message).toNat

theorem length_digest (message : Bytes) : (digest message).length = 4 :=
  length_bigEndian _ _

end Calculator.Digest.Crc32
