import Calculator.Settings.Basic
import Calculator.Tool.Basic

/-!
# What a server tells about itself

Its name and version, what it can do, and instructions for those who call its tools.
-/

namespace Calculator.Server

def instructions : String :=
  "Deterministic calculator. Tools cover arithmetic, advanced math, " ++
    "trigonometry (degrees unless use_radians), statistics, unit conversion (temperature, " ++
    "length, weight) and hashing of text, files, base64 or hex data. Every tool accepts " ++
    "response_format 'markdown' (default) or 'json'. Failures are returned as 'Error: <message>'."

def currentRevision : String := "2025-03-26"

def webRevision : String := "2024-11-05"

def identity (settings : Settings) : Json :=
  .ofMembers [("name", .string settings.name), ("version", .string settings.version)]

def welcome (settings : Settings) (revision : String) : Json :=
  .ofMembers [
    ("protocolVersion", .string revision),
    ("capabilities", .ofMembers [("tools", .object [])]),
    ("serverInfo", identity settings),
    ("instructions", .string instructions)]

def toolListings : List Json :=
  Tool.sortedByName.map Tool.listing

def toolList : Json :=
  .ofMembers [("tools", .array toolListings)]

end Calculator.Server
