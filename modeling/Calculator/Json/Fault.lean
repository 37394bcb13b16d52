import Calculator.Text.Quoted
import Calculator.Text.Utf8
import Calculator.Decimal.Layout
import Calculator.Json.Basic

/-!
# What is wrong with a document

A `Mismatch` is a value of the wrong kind, a `Cause` is a mismatch or a breach of the grammar, and a
`Fault` is a cause with the place where reading stopped. The place is kept as the number of bytes
left unread, from which line and column follow once the whole text is at hand.
-/

namespace Calculator.Json

def numberLayout : Decimal.Layout := ⟨some (-5, 15), true, ['+'], 1, .even⟩

inductive Found where
  | null
  | bool (b : Bool)
  | whole (n : Int)
  | float (x : Float)
  | string (s : String)
  | list
  | map

def Found.message : Found → String
  | .null => "null"
  | .bool b => s!"boolean `{b}`"
  | .whole n => s!"integer `{n}`"
  | .float x => s!"floating point `{floatText numberLayout x}`"
  | .string s => "string " ++ Text.quoted '"' s.toList
  | .list => "sequence"
  | .map => "map"

def found : Json → Found
  | .null => .null
  | .bool b => .bool b
  | .whole n => .whole n.val
  | .float x => .float x
  | .string s => .string s
  | .array _ => .list
  | .object _ => .map

/-- A well-formed value that does not have the expected shape. -/
inductive Mismatch where
  | kind (found : Found) (expected : String)
  | value (found : Found) (expected : String)
  | length (found : Nat) (expected : String)
  | unknownName (name : String) (names : List String)
  | missingField (name : String)
  | duplicateField (name : String)

def oneOf : List String → String
  | [] => "there are no variants"
  | [a] => s!"expected `{a}`"
  | [a, b] => s!"expected `{a}` or `{b}`"
  | names => "expected one of " ++ ", ".intercalate (names.map fun n => s!"`{n}`")

def Mismatch.message : Mismatch → String
  | .kind found expected => s!"invalid type: {found.message}, expected {expected}"
  | .value found expected => s!"invalid value: {found.message}, expected {expected}"
  | .length found expected => s!"invalid length {found}, expected {expected}"
  | .unknownName name names => s!"unknown variant `{name}`, {oneOf names}"
  | .missingField name => s!"missing field `{name}`"
  | .duplicateField name => s!"duplicate field `{name}`"

inductive Cause where
  | endInValue
  | endInList
  | endInObject
  | endInString
  | expectedColon
  | expectedListCommaOrEnd
  | expectedObjectCommaOrEnd
  | expectedWord
  | expectedValue
  | invalidEscape
  | invalidNumber
  | numberOutOfRange
  | controlCharacter
  | keyMustBeString
  | loneSurrogate
  | endOfHexEscape
  | trailingComma
  | trailingCharacters
  | tooDeep
  | mismatch (m : Mismatch)

def Cause.message : Cause → String
  | .endInValue => "EOF while parsing a value"
  | .endInList => "EOF while parsing a list"
  | .endInObject => "EOF while parsing an object"
  | .endInString => "EOF while parsing a string"
  | .expectedColon => "expected `:`"
  | .expectedListCommaOrEnd => "expected `,` or `]`"
  | .expectedObjectCommaOrEnd => "expected `,` or `\x7d`"
  | .expectedWord => "expected ident"
  | .expectedValue => "expected value"
  | .invalidEscape => "invalid escape"
  | .invalidNumber => "invalid number"
  | .numberOutOfRange => "number out of range"
  | .controlCharacter => "control character (\\u0000-\\u001F) found while parsing a string"
  | .keyMustBeString => "key must be a string"
  | .loneSurrogate => "lone leading surrogate in hex escape"
  | .endOfHexEscape => "unexpected end of hex escape"
  | .trailingComma => "trailing comma"
  | .trailingCharacters => "trailing characters"
  | .tooDeep => "recursion limit exceeded"
  | .mismatch m => m.message

structure Fault where
  cause : Cause
  left : Option Nat

def Fault.isMismatch (f : Fault) : Bool :=
  match f.cause with
  | .mismatch _ => true
  | _ => false

/-- Line and column after the first bytes of a text: newlines are counted from one, and the column
is the number of bytes since the last of them. -/
def position : (bytesRead line column : Nat) → List Char → Nat × Nat
  | _, line, column, [] => (line, column)
  | 0, line, column, _ => (line, column)
  | n + 1, line, column, c :: cs =>
    if c = '\n' then position n (line + 1) 0 cs
    else if n + 1 < c.utf8Size then (line, column + n + 1)
    else position (n + 1 - c.utf8Size) line (column + c.utf8Size) cs

def Fault.message (text : List Char) (f : Fault) : String :=
  match f.left with
  | none => f.cause.message
  | some left =>
    let (line, column) := position (Text.byteCount text - left) 1 0 text
    s!"{f.cause.message} at line {line} column {column}"

end Calculator.Json
