import Calculator.Server.MediaType
import Calculator.Server.Session

/-!
# Requests over the web

Calls are posted to one path as JSON text; two more paths tell about the server and its health. A
call that is posted as anything else than JSON, that is no JSON, or that is no call, is refused
before it is looked at. Where pages of other origins may ask, every response says so.
-/

namespace Calculator.Server.Web

structure Request where
  method : String
  target : String
  contentType : Option String
  body : String

inductive Content where
  | json (v : Json)
  | text (s : String)

structure Response where
  status : Nat
  content : Content
  allowOrigin : Option String

def path (target : String) : String :=
  String.ofList (target.toList.takeWhile fun c => c ≠ '?' ∧ c ≠ '#')

def respond (status : Nat) (content : Content) : Response :=
  ⟨status, content, none⟩

def about (settings : Settings) (endpoint : HttpEndpoint) (session : Option Session) : Json :=
  let rpc := endpoint.rpcPath
  .ofMembers [
    ("name", .string settings.name),
    ("version", .string settings.version),
    ("transport", .string "HTTP"),
    ("endpoints", .ofMembers [("rpc", .string rpc), ("health", .string "/health")]),
    ("protocol", .string "JSON-RPC 2.0"),
    ("initialized", .bool (session.any (·.initialized))),
    ("documentation", .string s!"Send POST requests to {rpc} with JSON-RPC messages")]

def health (now : String) : Json :=
  .ofMembers [("status", .string "healthy"), ("timestamp", .string now)]

def post (settings : Settings) (tree : FileTree) (session : Option Session) (r : Request) :
    Option Session × Response :=
  if (r.contentType.bind MediaType.parse?).any (·.isJson) then
    match Rpc.Request.parse r.body.toList with
    | .ok call =>
      let (session, response) := handle settings tree session call
      (session, respond 200 (.json response.document))
    | .error fault =>
      if fault.isMismatch then
        (session, respond 422 (.text "Failed to deserialize the JSON body into the target type"))
      else (session, respond 400 (.text "Failed to parse the request body as JSON"))
  else (session, respond 415 (.text "Expected request with `Content-Type: application/json`"))

inductive Route where
  | rpc
  | health
  | root
deriving DecidableEq, Repr

def route (endpoint : HttpEndpoint) (method path : String) : Except Nat Route :=
  let known := path = endpoint.rpcPath ∨ path = "/health" ∨ path = "/"
  let gets := method = "GET" ∨ method = "HEAD"
  if method = "POST" ∧ path = endpoint.rpcPath then .ok .rpc
  else if gets ∧ path = "/health" then .ok .health
  else if gets ∧ path = "/" then .ok .root
  else .error (if known then 405 else 404)

def answer (settings : Settings) (tree : FileTree) (endpoint : HttpEndpoint) (now : String)
    (session : Option Session) (r : Request) : Option Session × Response :=
  let told := fun v => respond 200 (if r.method = "HEAD" then .text "" else .json v)
  match route endpoint r.method (path r.target) with
  | .ok .rpc => post settings tree session r
  | .ok .health => (session, told (health now))
  | .ok .root => (session, told (about settings endpoint session))
  | .error status => (session, respond status (.text ""))

/-- Answers a request. Where other origins may ask, they may also ask for what is allowed. -/
def serve (settings : Settings) (tree : FileTree) (endpoint : HttpEndpoint) (now : String)
    (session : Option Session) (r : Request) : Option Session × Response :=
  if endpoint.enableCors then
    if r.method = "OPTIONS" then (session, ⟨200, .text "", some "*"⟩)
    else
      let (session, response) := answer settings tree endpoint now session r
      (session, { response with allowOrigin := some "*" })
  else answer settings tree endpoint now session r

end Calculator.Server.Web
