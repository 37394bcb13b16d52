import Calculator.Json.Fault

/-!
# Writing documents

A document is written compactly, or laid out with one item a line. How characters and floating
numbers are spelled is a parameter: the plain spelling leaves every character that needs no escape,
and the canonical one uses printable ASCII only, so that equal values have equal texts.
-/

namespace Calculator.Json

/-- How the parts of a document without parts are spelled. -/
structure Spelling where
  char : Char → List Char
  float : Float → List Char

def unitEscape (n : Nat) : List Char :=
  let ds := Nat.toDigits 16 n
  '\\' :: 'u' :: List.replicate (4 - ds.length) '0' ++ ds

def plainChar (c : Char) : List Char :=
  if c = '"' then ['\\', '"']
  else if c = '\\' then ['\\', '\\']
  else if c = '\x08' then ['\\', 'b']
  else if c = '\x0c' then ['\\', 'f']
  else if c = '\n' then ['\\', 'n']
  else if c = '\r' then ['\\', 'r']
  else if c = '\t' then ['\\', 't']
  else if c.toNat < 0x20 then unitEscape c.toNat
  else [c]

def finiteChars (layout : Decimal.Layout) (x : Float) : List Char :=
  if x.isFinite then floatChars layout x else ['n', 'u', 'l', 'l']

def Spelling.plain : Spelling := ⟨plainChar, finiteChars numberLayout⟩

def wideEscape (c : Char) : List Char :=
  if c.toNat < 0x10000 then unitEscape c.toNat
  else
    unitEscape (0xD800 + (c.toNat - 0x10000) / 0x400) ++
      unitEscape (0xDC00 + (c.toNat - 0x10000) % 0x400)

def canonicalChar (c : Char) : List Char :=
  if c.toNat < 0x80 then plainChar c else wideEscape c

/-- How a number is written in canonical JSON: `0.0001`, `1e-05`, `1e+16`. -/
def canonicalLayout : Decimal.Layout := ⟨some (-4, 15), true, ['+'], 2, .up⟩

def Spelling.canonical : Spelling := ⟨canonicalChar, finiteChars canonicalLayout⟩

def writeString (spelling : Spelling) (s : String) : List Char :=
  '"' :: s.toList.flatMap spelling.char ++ ['"']

def writeWhole (n : Int) : List Char :=
  if n < 0 then '-' :: Nat.toDigits 10 n.natAbs else Nat.toDigits 10 n.natAbs

mutual

def write (spelling : Spelling) : Json → List Char
  | .null => ['n', 'u', 'l', 'l']
  | .bool true => ['t', 'r', 'u', 'e']
  | .bool false => ['f', 'a', 'l', 's', 'e']
  | .whole n => writeWhole n.val
  | .float x => spelling.float x
  | .string s => writeString spelling s
  | .array [] => ['[', ']']
  | .array (v :: rest) => '[' :: write spelling v ++ writeItems spelling rest
  | .object [] => ['\x7b', '\x7d']
  | .object ((key, v) :: rest) =>
    '\x7b' :: writeString spelling key ++ ':' :: write spelling v ++ writeMembers spelling rest

def writeItems (spelling : Spelling) : List Json → List Char
  | [] => [']']
  | v :: rest => ',' :: write spelling v ++ writeItems spelling rest

def writeMembers (spelling : Spelling) : List (String × Json) → List Char
  | [] => ['\x7d']
  | (key, v) :: rest =>
    ',' :: writeString spelling key ++ ':' :: write spelling v ++ writeMembers spelling rest

end

def newline (depth : Nat) : List Char :=
  '\n' :: List.replicate (2 * depth) ' '

mutual

/-- A document with every item on a line of its own, indented by two for each level. -/
def layOut (spelling : Spelling) (depth : Nat) : Json → List Char
  | .array [] => ['[', ']']
  | .array (v :: rest) =>
    '[' :: newline (depth + 1) ++ layOut spelling (depth + 1) v ++ layOutItems spelling depth rest
  | .object [] => ['\x7b', '\x7d']
  | .object ((key, v) :: rest) =>
    '\x7b' :: newline (depth + 1) ++ writeString spelling key ++ ':' :: ' ' ::
      layOut spelling (depth + 1) v ++ layOutMembers spelling depth rest
  | v => write spelling v

def layOutItems (spelling : Spelling) (depth : Nat) : List Json → List Char
  | [] => newline depth ++ [']']
  | v :: rest =>
    ',' :: newline (depth + 1) ++ layOut spelling (depth + 1) v ++ layOutItems spelling depth rest

def layOutMembers (spelling : Spelling) (depth : Nat) : List (String × Json) → List Char
  | [] => newline depth ++ ['\x7d']
  | (key, v) :: rest =>
    ',' :: newline (depth + 1) ++ writeString spelling key ++ ':' :: ' ' ::
      layOut spelling (depth + 1) v ++ layOutMembers spelling depth rest

end

def text (v : Json) : String :=
  String.ofList (write .plain v)

def prettyText (v : Json) : String :=
  String.ofList (layOut .plain 0 v)

end Calculator.Json
