import Calculator.Json.Writer
import Calculator.Settings.Basic

/-!
# Settings as documents

The settings are written as one object with an object for each group. The transport is an object
with its kind among its own fields.
-/

namespace Calculator

namespace Transport

def document : Transport → Json
  | .stdio => .object [("type", .string "stdio")]
  | .tcp e => .object [
    ("type", .string "tcp"),
    ("port", .whole (.ofNat e.port.toNat)),
    ("host", .string e.host)]
  | .http e => .object [
    ("type", .string "http"),
    ("port", .whole (.ofNat e.port.toNat)),
    ("host", .string e.host),
    ("rpc_path", .string e.rpcPath),
    ("enable_cors", .bool e.enableCors)]

end Transport

def FilePolicy.document (p : FilePolicy) : Json :=
  .object [
    ("root_path", p.rootPath.elim .null .string),
    ("allow_symlinks", .bool p.allowSymlinks)]

def Limits.document (l : Limits) : Json :=
  .object [
    ("max_batch_size", .whole (.ofUInt64 l.maxBatchSize)),
    ("max_file_size", .whole (.ofUInt64 l.maxFileSize))]

namespace Settings

def document (s : Settings) : Json :=
  .object [
    ("server", .object [("name", .string s.name), ("version", .string s.version)]),
    ("logging", .object [("level", .string s.logLevel),
      ("with_timestamps", .bool s.logTimestamps)]),
    ("transport", s.transport.document),
    ("security", s.files.document),
    ("calculator", s.limits.document)]

def documentText (s : Settings) : String :=
  s.document.text

end Settings

end Calculator
