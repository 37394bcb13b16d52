import Calculator.Json.Record

/-!
# Messages of remote calls

A request names a method and may carry an id and parameters. A response repeats the id and has
either a result or an error with a code.
-/

namespace Calculator.Rpc

open Json

def protocolName : String := "2.0"

def notificationStart : String := "notifications/"

def isNotificationName (name : String) : Bool :=
  notificationStart.toList.isPrefixOf name.toList

def initializedName : String := "notifications/initialized"

structure Request where
  version : String
  id : Option Json
  method : String
  params : Option Json

inductive ErrorKind where
  | invalidRequest
  | methodNotFound
  | invalidParams
  | internal
deriving DecidableEq, Repr

def ErrorKind.code : ErrorKind → Int
  | .invalidRequest => -32600
  | .methodNotFound => -32601
  | .invalidParams => -32602
  | .internal => -32603

structure Error where
  kind : ErrorKind
  message : String

structure Response where
  id : Option Json
  outcome : Except Error Json

namespace Response

def success (id : Option Json) (result : Json) : Response :=
  ⟨id, .ok result⟩

def failure (id : Option Json) (kind : ErrorKind) (message : String) : Response :=
  ⟨id, .error ⟨kind, message⟩⟩

end Response

def number (n : Int) : Json :=
  match Whole.ofInt? n with
  | some w => .whole w
  | none => .null

def Error.document (e : Error) : Json :=
  .ofMembers [("code", number e.kind.code), ("message", .string e.message)]

def Response.document (r : Response) : Json :=
  .ofMembers ([("jsonrpc", .string protocolName)] ++
    r.id.toList.map (fun id => ("id", id)) ++
    match r.outcome with
    | .ok result => [("result", result)]
    | .error e => [("error", e.document)])

structure Request.Draft where
  version : Option String := none
  id : Option Json := none
  method : Option String := none
  params : Option Json := none

def present (v : Json) : Option Json :=
  if v.isNull then none else some v

def Request.build (d : Draft) : Except Mismatch Request := do
  let version ← given "jsonrpc" d.version
  let method ← given "method" d.method
  return { version, id := d.id.bind present, method, params := d.params.bind present }

/-- A field that holds any value, which lies one level below the request. -/
def Request.valueField (name : String) (field : Draft → Option Json) (set : Json → Draft → Draft)
    (fuel : Nat) : RecordField Draft :=
  ⟨name, fun d => (field d).isSome, fun d cs => do
    let (v, cs) ← readValue fuel (depthLimit - 1) cs
    return (.ok (set v d), cs)⟩

def Request.textField (name : String) (field : Draft → Option String) (set : String → Draft → Draft)
    (fuel : Nat) : RecordField Draft :=
  ⟨name, fun d => (field d).isSome, fun d cs => do
    let (s, cs) ← readShape Shape.string fuel cs
    return (.ok (set s d), cs)⟩

def Request.shape (fuel : Nat) : RecordShape Draft Request where
  name := "struct JsonRpcRequest"
  fields := [
    textField "jsonrpc" (·.version) (fun s d => { d with version := some s }) fuel,
    valueField "id" (·.id) (fun v d => { d with id := some v }) fuel,
    textField "method" (·.method) (fun s d => { d with method := some s }) fuel,
    valueField "params" (·.params) (fun v d => { d with params := some v }) fuel]
  spare := ["id", "params"]
  start := {}
  build := build

def Request.parse (text : List Char) : Except Fault Request := do
  let (r, rest) ← readRecord (shape (text.length + 1)) (text.length + 1) text
  readEnd rest
  return r

end Calculator.Rpc
