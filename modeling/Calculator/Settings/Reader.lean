import Calculator.Json.Record
import Calculator.Settings.Basic

/-!
# Reading settings

Every group of settings is a record. The transport is told by its kind, which may stand anywhere
among its fields, so the other fields are kept as values until the kind is known; a mismatch among
them has no place in the text.
-/

namespace Calculator

open Json

inductive TransportKind where
  | stdio
  | tcp
  | http
deriving DecidableEq, Repr

namespace TransportKind

def all : List TransportKind :=
  [.stdio, .tcp, .http]

def name : TransportKind → String
  | .stdio => "stdio"
  | .tcp => "tcp"
  | .http => "http"

instance : Choice TransportKind where
  all := all
  name := name
  mem_all := by intro a; cases a <;> decide
  nodup_names := by decide

def shape : Shape TransportKind
  | .string s => Shape.choiceOfName s
  | v => Shape.unexpected v "variant identifier"

end TransportKind

namespace Transport

structure Draft where
  port : Option UInt16 := none
  host : Option String := none
  rpcPath : Option String := none
  enableCors : Option Bool := none

def leafField {α : Type} (name : String) (field : Draft → Option α) (shape : Shape α)
    (set : α → Draft → Draft) :
    ValueField Draft :=
  ⟨name, fun d => (field d).isSome, fun d v => do return set (← shape v) d⟩

def portField : ValueField Draft :=
  leafField "port" (·.port) Shape.uint16 fun port d => { d with port := some port }

def hostField : ValueField Draft :=
  leafField "host" (·.host) Shape.string fun host d => { d with host := some host }

def rpcPathField : ValueField Draft :=
  leafField "rpc_path" (·.rpcPath) Shape.string fun path d => { d with rpcPath := some path }

def enableCorsField : ValueField Draft :=
  leafField "enable_cors" (·.enableCors) Shape.bool fun b d => { d with enableCors := some b }

def fields : TransportKind → List (ValueField Draft)
  | .stdio => []
  | .tcp => [portField, hostField]
  | .http => [portField, hostField, rpcPathField, enableCorsField]

def recordName : TransportKind → String
  | .stdio => "unit variant"
  | .tcp => "struct TcpConfig"
  | .http => "struct HttpConfig"

def build (kind : TransportKind) (d : Draft) : Except Mismatch Transport :=
  match kind with
  | .stdio => .ok .stdio
  | .tcp => do
    let port ← given "port" d.port
    return .tcp { port, host := d.host.getD defaultHost }
  | .http => do
    let port ← given "port" d.port
    return .http {
      port
      host := d.host.getD defaultHost
      rpcPath := d.rpcPath.getD defaultRpcPath
      enableCors := d.enableCors.getD defaultHttp.enableCors }

def ofMembers (kind : TransportKind) (members : List (String × Json)) :
    Except Mismatch Transport := do
  build kind (← fillMembers (fields kind) members {})

def ofElements (kind : TransportKind) (elements : List Json) : Except Mismatch Transport := do
  let d ← fillElements (fields kind) elements {}
  if kind ≠ .stdio ∧ elements = [] then
    .error (.length 0 (lengthText (recordName kind) (fields kind).length))
  else if (fields kind).length < elements.length then
    .error (leftOver elements.length (fields kind).length)
  else build kind d

structure Tagged where
  kind : Option TransportKind := none
  others : List (String × Json) := []

def readTaggedMember (fuel depth : Nat) (state : Tagged) (key : String) : Read Tagged := fun cs =>
  if key = "type" then
    if state.kind.isSome then mismatchAt (afterObject cs) (.duplicateField key)
    else do
      let ((), cs) ← readColon cs
      let (kind, cs) ← readShape TransportKind.shape fuel cs
      return ({ state with kind := some kind }, cs)
  else do
    let ((), cs) ← readColon cs
    let (v, cs) ← readValue fuel depth cs
    return ({ state with others := (key, v) :: state.others }, cs)

def readTaggedElement (fuel depth : Nat) (state : Option TransportKind × List Json) :
    Read (Option TransportKind × List Json) := fun cs =>
  match state.1 with
  | none => do
    let (kind, cs) ← readShape TransportKind.shape fuel cs
    return ((some kind, []), cs)
  | some kind => do
    let (v, cs) ← readValue fuel depth cs
    return ((some kind, v :: state.2), cs)

def read (fuel depth : Nat) : Read (Except Mismatch Transport) := fun cs =>
  match skipSpace cs with
  | [] => faultAt [] .endInValue
  | c :: rest =>
    if c = '\x7b' then do
      let (state, rest) ← readMembers (readTaggedMember fuel depth) fuel true {} rest
      match state.kind with
      | none => mismatchAt rest (.missingField "type")
      | some kind => .ok (ofMembers kind state.others.reverse, rest)
    else if c = '[' then do
      let ((kind, others), rest) ← readItems (readTaggedElement fuel depth)
        fuel true (none, []) rest
      match kind with
      | none => mismatchAt rest (.missingField "type")
      | some kind => .ok (ofElements kind others.reverse, rest)
    else do
      let (t, rest) ← readShape
        (fun v => Shape.unexpected v "internally tagged enum TransportConfig") fuel (c :: rest)
      return (.ok t, rest)

def parse (text : List Char) : Except Fault Transport := do
  match ← read (text.length + 1) (depthLimit - 1) text with
  | (.ok t, rest) => do
    readEnd rest
    return t
  | (.error m, _) => .error ⟨.mismatch m, none⟩

end Transport

namespace Settings

structure Draft where
  server : Option (String × String) := none
  logging : Option (String × Bool) := none
  transport : Option Transport := none
  files : Option FilePolicy := none
  limits : Option Limits := none

def serverShape (fuel : Nat) :=
  pairShape "struct ServerConfig" fuel ("name", Shape.string) ("version", Shape.string)
    fun name version => do
      return (← given "name" name, ← given "version" version)

def loggingShape (fuel : Nat) :=
  pairShape "struct LoggingConfig" fuel ("level", Shape.string) ("with_timestamps", Shape.bool)
    fun level timestamps => do
      return (← given "level" level, ← given "with_timestamps" timestamps)

def filesShape (fuel : Nat) :=
  pairShape "struct SecurityConfig" fuel ("root_path", Shape.nullable (Shape.text "path string"))
    ("allow_symlinks", Shape.bool) fun rootPath allowSymlinks => do
      return ({
        rootPath := rootPath.join
        allowSymlinks := ← given "allow_symlinks" allowSymlinks } : FilePolicy)

def limitsShape (fuel : Nat) :=
  pairShape "struct CalculatorConfig" fuel ("max_batch_size", Shape.size)
    ("max_file_size", Shape.uint64)
    fun batch file => do
      return ({
        maxBatchSize := ← given "max_batch_size" batch
        maxFileSize := ← given "max_file_size" file } : Limits)

def groupField {σ α : Type} (name : String) (group : Draft → Option α)
    (set : α → Draft → Draft) (fuel : Nat) (shape : RecordShape σ α) : RecordField Draft :=
  ⟨name, fun d => (group d).isSome, fun d cs => do
    let (a, cs) ← readRecord shape fuel cs
    return (.ok (set a d), cs)⟩

def transportField (fuel : Nat) : RecordField Draft :=
  ⟨"transport", (·.transport.isSome), fun d cs => do
    let (t, cs) ← Transport.read fuel (depthLimit - 2) cs
    return (t.map fun t => { d with transport := some t }, cs)⟩

def build (d : Draft) : Except Mismatch Settings := do
  let (name, version) ← given "server" d.server
  let (logLevel, logTimestamps) ← given "logging" d.logging
  let transport ← given "transport" d.transport
  let files ← given "security" d.files
  let limits ← given "calculator" d.limits
  return { name, version, logLevel, logTimestamps, transport, files, limits }

def shape (fuel : Nat) : RecordShape Draft Settings where
  name := "struct Config"
  fields := [
    groupField "server" (·.server) (fun a d => { d with server := some a }) fuel (serverShape fuel),
    groupField "logging" (·.logging) (fun a d => { d with logging := some a })
      fuel (loggingShape fuel),
    transportField fuel,
    groupField "security" (·.files) (fun a d => { d with files := some a }) fuel (filesShape fuel),
    groupField "calculator" (·.limits) (fun a d => { d with limits := some a })
      fuel (limitsShape fuel)]
  start := {}
  build := build

def parse (text : List Char) : Except Fault Settings := do
  let (s, rest) ← readRecord (shape (text.length + 1)) (text.length + 1) text
  readEnd rest
  return s

end Settings

end Calculator
