/-!
# Settings of the server

What the server is called, how it logs, how clients reach it, which files may be hashed, and how
much one request may ask for.
-/

namespace Calculator

structure TcpEndpoint where
  port : UInt16
  host : String
deriving DecidableEq, Repr

structure HttpEndpoint where
  port : UInt16
  host : String
  rpcPath : String
  enableCors : Bool
deriving DecidableEq, Repr

inductive Transport where
  | stdio
  | tcp (endpoint : TcpEndpoint)
  | http (endpoint : HttpEndpoint)
deriving DecidableEq, Repr

namespace Transport

def defaultHost : String := "127.0.0.1"

def defaultRpcPath : String := "/mcp"

def defaultTcp : TcpEndpoint := ⟨3000, defaultHost⟩

def defaultHttp : HttpEndpoint := ⟨8080, defaultHost, defaultRpcPath, true⟩

def description : Transport → String
  | .stdio => "STDIO (standard MCP mode)"
  | .tcp e => s!"TCP on {e.host}:{e.port}"
  | .http e => s!"HTTP on {e.host}:{e.port}{e.rpcPath}"

end Transport

structure FilePolicy where
  rootPath : Option String
  allowSymlinks : Bool
deriving DecidableEq, Repr

structure Limits where
  maxBatchSize : UInt64
  maxFileSize : UInt64
deriving DecidableEq, Repr

structure Settings where
  name : String
  version : String
  logLevel : String
  logTimestamps : Bool
  transport : Transport
  files : FilePolicy
  limits : Limits
deriving DecidableEq, Repr

namespace Settings

def default : Settings where
  name := "calculator-mcp-server"
  version := "0.1.0"
  logLevel := "info"
  logTimestamps := true
  transport := .stdio
  files := ⟨none, true⟩
  limits := ⟨1000, 1073741824⟩

end Settings

end Calculator
