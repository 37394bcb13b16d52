import Calculator.Rpc.Message
import Calculator.Rpc.Params

/-!
# Messages from a client on a stream

A message is read as the first of these that it can be: a request, which has an id; the answer to a
request of the server's; a notification. A request for a known method whose parameters are not of
its kind counts as one for an unknown method, as long as the parameters are an object at all. Where
reading fails, notifications of other protocols are told apart from what cannot be read.
-/

namespace Calculator.Rpc

inductive Call where
  | connect (revision : String)
  | ping
  | complete
  | listPrompts
  | listResources
  | listResourceTemplates
  | listTools
  | callTool (name : String) (arguments : Json)
  | other (method : String)

inductive Incoming where
  | request (id : Json) (call : Call)
  | notification (name : String)
  | reply
  | foreign
  | unreadable

/-- A text, or a whole number that fits 64 bits with a sign. -/
def isId : Json → Bool
  | .string _ => true
  | .whole n => n.val < 2 ^ 63
  | _ => false

def isParams (v : Json) : Bool :=
  isObject v && optional isObject (v.get? "_meta")

namespace Call

def ofToolParams? (params : Json) : Option Call := do
  let name ← (params.get? "name").bind Json.asString?
  match params.get? "arguments" with
  | none | some .null => some (.callTool name (.object []))
  | some (.object members) => some (.callTool name (.object members))
  | some _ => none

def ofParams (method : String) (params : Json) : Call :=
  let known :=
    if method = "initialize" then (revision? params).map .connect
    else if method = "tools/call" then ofToolParams? params
    else if method = "completion/complete" then
      (if isCompletion params then some .complete else none)
    else none
  known.getD (.other method)

/-- The call of a method. Nothing is asked of the parameters of a ping, and the lists have no
parameter that matters. -/
def read? (method : String) (params : Option Json) : Option Call :=
  if method = "ping" then some .ping
  else if optional isParams params then
    some <|
      if method = "prompts/list" then .listPrompts
      else if method = "resources/list" then .listResources
      else if method = "resources/templates/list" then .listResourceTemplates
      else if method = "tools/list" then .listTools
      else ofParams method (params.getD .null)
  else none

end Call

namespace Incoming

def requestNames : List String := [
  "initialize", "ping", "prompts/get", "prompts/list", "resources/list", "resources/read",
  "resources/subscribe", "resources/unsubscribe", "resources/templates/list",
    "tools/call", "tools/list",
  "completion/complete", "logging/setLevel", "roots/list", "sampling/createMessage"]

def notificationNames : List String := [
  "notifications/cancelled", initializedName, "notifications/message", "notifications/progress",
  "notifications/prompts/list_changed", "notifications/resources/list_changed",
  "notifications/resources/updated", "notifications/roots/list_changed",
  "notifications/tools/list_changed"]

def ignoresParams (name : String) : Bool :=
  name = initializedName || name = "notifications/roots/list_changed"

def isErrorValue : Json → Bool :=
  isRecord [
    ("code", required fun
      | .whole n => -2 ^ 31 ≤ n.val && n.val < 2 ^ 31
      | _ => false),
    ("message", required isText), ("data", fun _ => true)]

def head : FieldTests := [
  ("jsonrpc", required fun
    | .string s => s = protocolName
    | _ => false),
  ("id", required isId)]

def isAnswer (message : Json) : Bool :=
  isRecord (head ++ [("result", required fun _ => true)]) message

def isErrorAnswer (message : Json) : Bool :=
  isRecord (head ++ [("error", required isErrorValue)]) message

def method? (message : Json) : Option String :=
  (message.get? "method").bind Json.asString?

def request? (message : Json) : Option Incoming := do
  let id ← message.get? "id"
  let method ← method? message
  if isId id then (Call.read? method (message.get? "params")).map (.request id) else none

def notification? (message : Json) : Option Incoming := do
  let name ← method? message
  if ignoresParams name || optional isParams (message.get? "params") then
    some (.notification name) else none

/-- What cannot be read is passed over if it is, by its name, a notification of another protocol. -/
def ofUnread (message : Json) : Incoming :=
  match method? message with
  | none => .unreadable
  | some name =>
    let isKnownNotification := notificationNames.contains name
    let isKnown := requestNames.contains name || isKnownNotification
    if (message.get? "id").isNone && !isKnown then .foreign
    else if isNotificationName name && !isKnownNotification then .foreign
    else .unreadable

def ofJson (message : Json) : Incoming :=
  let speaksProtocol := (message.get? "jsonrpc").bind Json.asString? = some protocolName
  let asRequest := if speaksProtocol then request? message else none
  let asNotification := if speaksProtocol then notification? message else none
  match asRequest with
  | some incoming => incoming
  | none =>
    if isAnswer message then .reply
    else
      match asNotification with
      | some incoming => incoming
      | none => if isErrorAnswer message then .reply else ofUnread message

end Incoming

end Calculator.Rpc
