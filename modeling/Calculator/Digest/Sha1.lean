import Calculator.Digest.Words

/-!
# SHA-1

Five words of state and a schedule of eighty words. The rounds come in four runs of twenty, each
with a mixing function and a constant of its own.
-/

namespace Calculator.Digest.Sha1

structure State where
  a : UInt32
  b : UInt32
  c : UInt32
  d : UInt32
  e : UInt32

def start : State := ⟨0x67452301, 0xefcdab89, 0x98badcfe, 0x10325476, 0xc3d2e1f0⟩

def extend : (count : Nat) → Array UInt32 → Array UInt32
  | 0, w => w
  | count + 1, w =>
    let n := w.size
    extend count (w.push (rotateLeft32
      (w.getD (n - 3) 0 ^^^ w.getD (n - 8) 0 ^^^ w.getD (n - 14) 0 ^^^ w.getD (n - 16) 0) 1))

def round (s : State) (i : Nat) (w : UInt32) : State :=
  let (mix, k) : UInt32 × UInt32 := match i / 20 with
    | 0 => ((s.b &&& s.c) ||| (~~~s.b &&& s.d), 0x5a827999)
    | 1 => (s.b ^^^ s.c ^^^ s.d, 0x6ed9eba1)
    | 2 => ((s.b &&& s.c) ||| (s.b &&& s.d) ||| (s.c &&& s.d), 0x8f1bbcdc)
    | _ => (s.b ^^^ s.c ^^^ s.d, 0xca62c1d6)
  ⟨rotateLeft32 s.a 5 + mix + s.e + k + w, s.a, rotateLeft32 s.b 30, s.c, s.d⟩

def compress (s : State) (block : Bytes) : State :=
  let w := extend 64 ((bigWords 4 block).map UInt32.ofNat).toArray
  let t := w.toList.zipIdx.foldl (fun s (w, i) => round s i w) s
  ⟨s.a + t.a, s.b + t.b, s.c + t.c, s.d + t.d, s.e + t.e⟩

def digest (message : Bytes) : Bytes :=
  let closed := close 64 (bigEndian 8 (message.length * 8)) message
  let s := (blocks 64 closed).foldl compress start
  [s.a, s.b, s.c, s.d, s.e].flatMap fun w => bigEndian 4 w.toNat

theorem length_digest (message : Bytes) : (digest message).length = 20 := by
  simp [digest, length_bigEndian]

end Calculator.Digest.Sha1
