import Calculator.Settings.Basic
import Calculator.Text.Blank
import Calculator.Text.Casing

/-!
# Settings from the environment

Every variable has one setting of its own, and one that is absent or cannot be read leaves the
default. The variables are those that a process has after a file `.env` beside it, if there is one,
has set those that were missing.
-/

namespace Calculator

/-- The value of a variable, if it is set by the process or, where the process does not set it, by a
file `.env`. -/
abbrev Environment := String → Option String

namespace Environment

def readNat? (bound : Nat) (s : String) : Option Nat :=
  let digits := match s.toList with
    | '+' :: rest => rest
    | cs => cs
  if digits.isEmpty || !digits.all Char.isDigit then none
  else
    let n := digits.foldl (fun n c => n * 10 + (c.toNat - '0'.toNat)) 0
    if n < bound then some n else none

/-- A switch is on unless it is set to `0` or to `false` in any letter case. -/
def isOn (s : String) : Bool :=
  Text.lower s != "false" && s != "0"

/-- A switch that is off for `false` alone. -/
def isOnExact (s : String) : Bool :=
  s != "false"

def readPort (s : String) (default : UInt16) : UInt16 :=
  match readNat? UInt16.size (Text.trim s) with
  | some n => UInt16.ofNat n
  | none => default

/-- A path that starts with a slash; the empty path and the bare slash mean the default. -/
def rpcPath (s : String) : String :=
  let path := Text.trim s
  if path = "" ∨ path = "/" then Transport.defaultRpcPath
  else if path.toList.head? = some '/' then path
  else "/" ++ path

def transport (env : Environment) : Transport :=
  let kind := Text.lower ((env "MCP_TRANSPORT").getD "")
  if kind = "tcp" then
    .tcp {
      port := match env "MCP_TCP_PORT" with
        | some s => readPort s Transport.defaultTcp.port
        | none => Transport.defaultTcp.port
      host := (env "MCP_TCP_HOST").getD Transport.defaultHost }
  else if kind = "http" then
    .http {
      port := match env "MCP_HTTP_PORT" with
        | some s => readPort s Transport.defaultHttp.port
        | none => Transport.defaultHttp.port
      host := (env "MCP_HTTP_HOST").getD Transport.defaultHost
      rpcPath := ((env "MCP_HTTP_PATH").map rpcPath).getD Transport.defaultRpcPath
      enableCors := ((env "MCP_HTTP_CORS").map isOn).getD true }
  else .stdio

/-- The settings for the variables as they are once a file `.env` has been read. -/
def settings (env : Environment) : Settings where
  name := (env "MCP_SERVER_NAME").getD Settings.default.name
  version := Settings.default.version
  logLevel := (env "MCP_LOG_LEVEL").getD Settings.default.logLevel
  logTimestamps := ((env "MCP_LOG_TIMESTAMPS").map isOn).getD true
  transport := transport env
  files := {
    rootPath := env "MCP_ROOT_PATH"
    allowSymlinks := ((env "MCP_ALLOW_SYMLINKS").map isOnExact).getD true }
  limits := {
    maxBatchSize :=
      match (env "MCP_MAX_BATCH_SIZE").bind (readNat? UInt64.size) with
      | some n => if n = 0 then Settings.default.limits.maxBatchSize else UInt64.ofNat n
      | none => Settings.default.limits.maxBatchSize
    maxFileSize :=
      match (env "MCP_MAX_FILE_SIZE").bind (readNat? UInt64.size) with
      | some n => UInt64.ofNat n
      | none => Settings.default.limits.maxFileSize }

end Environment

end Calculator
