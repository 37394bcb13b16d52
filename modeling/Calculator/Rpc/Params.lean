import Calculator.Json.Basic

/-!
# Parameters of requests

What a request on a stream must bring along, as tests of values. A record is an object with its
fields in any order, or the list of its fields in their own order; fields that nobody knows are
passed over in an object. Parameters themselves are always an object.
-/

namespace Calculator.Rpc

def isText : Json → Bool
  | .string _ => true
  | _ => false

def isSwitch : Json → Bool
  | .bool _ => true
  | _ => false

def isObject : Json → Bool
  | .object _ => true
  | _ => false

def isListOf (test : Json → Bool) : Json → Bool
  | .array items => items.all test
  | _ => false

def isMapOf (test : Json → Bool) : Json → Bool
  | .object members => members.all fun m => test m.2
  | _ => false

def required (test : Json → Bool) : Option Json → Bool
  | some v => test v
  | none => false

def optional (test : Json → Bool) : Option Json → Bool
  | none | some .null => true
  | some v => test v

abbrev FieldTests := List (String × (Option Json → Bool))

def isRecord (fields : FieldTests) : Json → Bool
  | .object members => fields.all fun f => f.2 ((Json.object members).get? f.1)
  | .array items => items.length = fields.length && (fields.zip items).all fun (f, v) =>
      f.2 (some v)
  | _ => false

def isIcon : Json → Bool :=
  isRecord [("src", required isText), ("mimeType", optional isText),
    ("sizes", optional (isListOf isText))]

def isIdentity : Json → Bool :=
  isRecord [("name", required isText), ("title", optional isText), ("version", required isText),
    ("icons", optional (isListOf isIcon)), ("websiteUrl", optional isText)]

def isCapabilities : Json → Bool :=
  isRecord [("experimental", optional (isMapOf isObject)),
    ("roots", optional (isRecord [("listChanged", optional isSwitch)])),
    ("sampling", optional isObject),
    ("elicitation", optional (isRecord [("schemaValidation", optional isSwitch)]))]

def revision? (params : Json) : Option String :=
  if required isCapabilities (params.get? "capabilities") &&
    required isIdentity (params.get? "clientInfo") then
    (params.get? "protocolVersion").bind Json.asString?
  else none

def isReference (v : Json) : Bool :=
  let fields : String → Option FieldTests := fun type =>
    if type = "ref/prompt" then some [("name", required isText), ("title", optional isText)]
    else if type = "ref/resource" then some [("uri", required isText)]
    else none
  match v with
  | .object _ => (((v.get? "type").bind Json.asString?).bind fields).any fun fs => isRecord fs v
  | .array (.string type :: items) => (fields type).any fun fs => isRecord fs (.array items)
  | _ => false

def isCompletion (params : Json) : Bool :=
  required isReference (params.get? "ref") &&
    required (isRecord [("name", required isText), ("value", required isText)])
      (params.get? "argument") &&
    optional (isRecord [("arguments", optional (isMapOf isText))]) (params.get? "context")

end Calculator.Rpc
