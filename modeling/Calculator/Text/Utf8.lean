/-!
# Text as bytes

Text is written as bytes in UTF-8. Reading is lenient: the bytes are cut into chunks, of which only
the characters are kept. A chunk is a run of well-formed characters and the bytes at which the run
ends: a byte that begins no character, or a character up to the byte at which it breaks off. A
well-formed character has no shorter spelling, is no surrogate, and is at most `U+10FFFF`.
-/

namespace Calculator

abbrev Bytes := List UInt8

namespace Text

def byteCount (cs : List Char) : Nat :=
  cs.foldr (fun c count => c.utf8Size + count) 0

theorem byteCount_nil : byteCount [] = 0 := rfl

theorem byteCount_cons (c : Char) (cs : List Char) :
    byteCount (c :: cs) = c.utf8Size + byteCount cs := rfl

def encode (cs : List Char) : Bytes :=
  cs.flatMap String.utf8EncodeChar

theorem encode_nil : encode [] = [] := rfl

theorem encode_cons (c : Char) (cs : List Char) :
    encode (c :: cs) = String.utf8EncodeChar c ++ encode cs := rfl

theorem encode_append (cs ds : List Char) : encode (cs ++ ds) = encode cs ++ encode ds := by
  simp [encode]

structure ByteRange where
  least : Nat
  most : Nat
deriving DecidableEq, Repr

def ByteRange.contains (range : ByteRange) (b : UInt8) : Bool :=
  range.least ≤ b.toNat && b.toNat ≤ range.most

def ByteRange.continuation : ByteRange :=
  ⟨0x80, 0xBF⟩

/-- The range of the byte after the first byte `lead` of a character. -/
def ByteRange.second (lead : UInt8) : ByteRange :=
  -- What has a shorter spelling is left out after `0xE0` and `0xF0`, the surrogates after `0xED`,
  -- and what
  -- is beyond `U+10FFFF` after `0xF4`.
  if lead = 0xE0 then ⟨0xA0, 0xBF⟩
  else if lead = 0xED then ⟨0x80, 0x9F⟩
  else if lead = 0xF0 then ⟨0x90, 0xBF⟩
  else if lead = 0xF4 then ⟨0x80, 0x8F⟩
  else .continuation

/-- What the first byte of a character tells: the first bits of the code point, and a range for each
of the bytes after it. -/
structure Lead where
  bits : Nat
  followers : List ByteRange
deriving DecidableEq, Repr

def Lead.ofByte? (b : UInt8) : Option Lead :=
  let n := b.toNat
  if n < 0x80 then some ⟨n, []⟩
  -- Continuation bytes, and `0xC0` and `0xC1`, which would only begin longer spellings of single
  -- bytes.
  else if n < 0xC2 then none
  else if n < 0xE0 then some ⟨n - 0xC0, [.second b]⟩
  else if n < 0xF0 then some ⟨n - 0xE0, [.second b, .continuation]⟩
  else if n < 0xF5 then some ⟨n - 0xF0, [.second b, .continuation, .continuation]⟩
  else none

def Lead.char (lead : Lead) (followers : Bytes) : Char :=
  Char.ofNat (followers.foldl (fun code b => code * 64 + (b.toNat - 0x80)) lead.bits)

def fitting : List ByteRange → Bytes → Bytes
  | range :: ranges, b :: bytes => if range.contains b then b :: fitting ranges bytes else []
  | _, _ => []

structure Chunk where
  valid : List Char
  invalid : Bytes
deriving DecidableEq, Repr

def Chunk.prepend (c : Char) : List Chunk → List Chunk
  | [] => [⟨[c], []⟩]
  | chunk :: chunks => { chunk with valid := c :: chunk.valid } :: chunks

def chunksAfter : Nat → Bytes → List Chunk
  | _, [] => []
  | skip + 1, _ :: rest => chunksAfter skip rest
  | 0, b :: rest =>
    match Lead.ofByte? b with
    | none => ⟨[], [b]⟩ :: chunksAfter 0 rest
    | some lead =>
      let taken := fitting lead.followers rest
      if taken.length = lead.followers.length then
        Chunk.prepend (lead.char taken) (chunksAfter taken.length rest)
      else
        -- The byte at which the character breaks off may begin another one.
        ⟨[], b :: taken⟩ :: chunksAfter taken.length rest

def chunks (bytes : Bytes) : List Chunk :=
  chunksAfter 0 bytes

/-- The well-formed characters of the bytes, in order. -/
def decodeLossy (bytes : Bytes) : List Char :=
  (chunks bytes).flatMap Chunk.valid

theorem decodeLossy_nil : decodeLossy [] = [] := rfl

def decode? (bytes : Bytes) : Option (List Char) :=
  if encode (decodeLossy bytes) = bytes then some (decodeLossy bytes) else none

end Text

end Calculator
