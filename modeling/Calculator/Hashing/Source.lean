import Calculator.Choice
import Calculator.Encoding.Base64
import Calculator.Encoding.Hex
import Calculator.Failure
import Calculator.FileTree.Policy
import Calculator.Text.Blank

/-!
# What is hashed

Data is given as text, as the path of a file, or as bytes in base64 or hexadecimal digits. A source
is data that passed all checks: a file is known by the place that its path leads to, and bytes are
decoded. Text counts as it is; around the other kinds blanks are dropped.
-/

namespace Calculator

inductive InputType where
  | text
  | file
  | base64
  | hex
deriving DecidableEq, Repr

namespace InputType

def all : List InputType :=
  [.text, .file, .base64, .hex]

def name : InputType → String
  | .text => "text"
  | .file => "file"
  | .base64 => "base64"
  | .hex => "hex"

instance : Choice InputType where
  all := all
  name := name
  mem_all := by intro a; cases a <;> decide
  nodup_names := by decide

end InputType

inductive HashSource where
  | text (s : String)
  | file (path : String) (size : Nat)
  | bytes (content : Bytes)

namespace HashSource

def read (tree : FileTree) : HashSource → Outcome Bytes
  | .text s => .ok (Text.encode s.toList)
  | .bytes content => .ok content
  | .file path _ =>
    match tree.read path with
    | .ok content => .ok content
    | .error fault => .error (.unreadable path (.file fault))

def decodeBase64 (text : String) : Outcome Bytes :=
  match Base64.decode (Text.encode text.toList) with
  | .ok content => .ok content
  | .error fault => .error (.malformed (.base64 fault))

def decodeHex (text : String) : Outcome Bytes :=
  match Hex.decode (Text.encode text.toList) with
  | .ok content => .ok content
  | .error fault => .error (.malformed (.hex fault))

def ofPath (settings : Settings) (tree : FileTree) (field path : String) : Outcome HashSource :=
  match settings.files.permit tree path with
  | .error refusal => .error (.validation field (.admittedPath refusal))
  | .ok place =>
    match tree.open? place.path with
    | .error fault => .error (.unreadable place.path (.file fault))
    | .ok (.file content) =>
      let limit := settings.limits.maxFileSize
      if limit.toNat < content.length then
        .error (.validation field (.fileWithinLimit content.length limit))
      else .ok (.file place.path content.length)
    | .ok _ => .error (.validation field (.isFile path))

def ofBase64 (field text : String) : Outcome HashSource :=
  match Base64.decode (Text.encode text.toList) with
  | .ok content => .ok (.bytes content)
  | .error _ => .error (.validation field .base64)

def ofHex (field text : String) : Outcome HashSource :=
  let digits := Text.encode text.toList
  if digits.isEmpty || !digits.all Hex.isDigit then .error (.validation field .hex)
  else
    match Hex.decode digits with
    | .ok content => .ok (.bytes content)
    | .error _ => .error (.validation field .evenHex)

def ofInput (settings : Settings) (tree : FileTree) (field : String)
    (type : InputType) (raw : String) :
    Outcome HashSource :=
  match type with
  | .text => .ok (.text raw)
  | .file => ofPath settings tree field (Text.trim raw)
  | .base64 => ofBase64 field (Text.trim raw)
  | .hex => ofHex field (Text.trim raw)

end HashSource

end Calculator
