import Calculator.Rpc.Incoming
import Calculator.Server.Info
import Calculator.Tool.Call

/-!
# Talks on a stream

Client and server exchange messages on a stream, a line each. The client introduces itself and is
welcomed, says that it is ready, and from then on its requests are answered. Anything out of this
order ends the talk, and so does a message that cannot be read; notifications of other protocols are
passed over at any time.
-/

namespace Calculator.Server.Stream

open Rpc

inductive Stage where
  | fresh
  | welcomed
  | ready
  | closed
deriving DecidableEq, Repr

/-- The revision of the protocol for a client: the older one of its own and the server's. -/
def agreedRevision (revision : String) : String :=
  if revision < currentRevision then revision else currentRevision

def callTool (settings : Settings) (tree : FileTree) (name : String)
    (arguments : Json) : Except Error Json :=
  match Tool.call settings tree name arguments with
  | .ok result => .ok result.json
  | .error (.unknownTool _) => .error ⟨.invalidParams, "tool not found"⟩
  | .error fault => .error ⟨.invalidParams, fault.message⟩

/-- Answers a request. A server of tools has no resources, no prompts and nothing to complete, and a
method that it does not know is repeated in the error. A client that introduces itself once more is
told the server's own revision. -/
def answer (settings : Settings) (tree : FileTree) : Call → Except Error Json
  | .connect _ => .ok (welcome settings currentRevision)
  | .ping => .ok (.object [])
  | .complete => .ok (.ofMembers [("completion", .ofMembers [("values", .array [])])])
  | .listPrompts => .ok (.ofMembers [("prompts", .array [])])
  | .listResources => .ok (.ofMembers [("resources", .array [])])
  | .listResourceTemplates => .ok (.ofMembers [("resourceTemplates", .array [])])
  | .listTools => .ok toolList
  | .callTool name arguments => callTool settings tree name arguments
  | .other method => .error ⟨.methodNotFound, method⟩

/-- The next stage after a message, and the response to it. -/
def step (settings : Settings) (tree : FileTree) : Stage → Incoming → Stage × Option Response
  | .closed, _ => (.closed, none)
  | stage, .foreign => (stage, none)
  | .fresh, .request id (.connect revision) =>
    (.welcomed, some (.success (some id) (welcome settings (agreedRevision revision))))
  | .welcomed, .notification name => (if name = initializedName then .ready else .closed, none)
  | .ready, .request id call => (.ready, some ⟨some id, answer settings tree call⟩)
  | .ready, .notification _ => (.ready, none)
  | .ready, .reply => (.ready, none)
  | _, _ => (.closed, none)

def talk (settings : Settings) (tree : FileTree) : Stage → List Json →
    List (Stage × Option Response)
  | _, [] => []
  | stage, message :: rest =>
    let reaction := step settings tree stage (.ofJson message)
    reaction :: talk settings tree reaction.1 rest

end Calculator.Server.Stream
