import Calculator.Rpc.Message
import Calculator.Server.Info
import Calculator.Tool.Call

/-!
# Sessions of a web server

The server keeps one session, that of the client that asked last to initialize. The session is
complete once that client says that it is initialized; nothing else changes it. Every request is
answered, those that are mere notifications too.
-/

namespace Calculator.Server

open Rpc

structure Session where
  initialized : Bool
deriving DecidableEq, Repr

inductive Method where
  | connect
  | listTools
  | callTool
  | ping
  | notification (name : String)
  | unknown (name : String)
deriving DecidableEq, Repr

/-- The method of a name; any name that starts as a notification is one. -/
def Method.ofName (name : String) : Method :=
  if name = "initialize" then .connect
  else if name = "tools/list" then .listTools
  else if name = "tools/call" then .callTool
  else if name = "ping" then .ping
  else if isNotificationName name then .notification name
  else .unknown name

def callTool (settings : Settings) (tree : FileTree) (r : Request) : Response :=
  match r.params with
  | none => .failure r.id .invalidParams "Missing params"
  | some params =>
    match (params.get? "name").bind Json.asString? with
    | none => .failure r.id .invalidParams "Missing tool name"
    | some name =>
      match Tool.call settings tree name ((params.get? "arguments").getD (.object [])) with
      | .ok result => .success r.id result.json
      | .error fault =>
        .failure r.id (if fault.isInternal then .internal else .invalidParams) fault.message

def Session.notify (name : String) (session : Option Session) : Option Session :=
  if name = initializedName then session.map fun _ => ⟨true⟩ else session

def handle (settings : Settings) (tree : FileTree) (session : Option Session) (r : Request) :
    Option Session × Response :=
  if r.version ≠ protocolName then (session, .failure r.id .invalidRequest "Invalid Request")
  else
    match Method.ofName r.method with
    | .connect => (some ⟨false⟩, .success r.id (welcome settings webRevision))
    | .listTools => (session, .success r.id toolList)
    | .callTool => (session, callTool settings tree r)
    | .ping => (session, .success r.id (.object []))
    | .notification name => (Session.notify name session, .success r.id .null)
    | .unknown _ => (session, .failure r.id .methodNotFound "Method not found")

def handleAll (settings : Settings) (tree : FileTree) :
    Option Session → List Request → Option Session × List Response
  | session, [] => (session, [])
  | session, r :: rest =>
    let (session, response) := handle settings tree session r
    let (session, responses) := handleAll settings tree session rest
    (session, response :: responses)

end Calculator.Server
