import Calculator.Failure
import Calculator.Json.Fault
import Calculator.Tool.Call

/-!
# What goes wrong with a server

The wording of failures beyond a single computation: in starting a server, in its settings, and in
carrying messages. A reason that comes from elsewhere is kept as text.
-/

namespace Calculator.Server

inductive Failure where
  | call (fault : CallFault)
  | computation (failure : Calculator.Failure)
  | settings (reason : String)
  | inputOutput (reason : String)
  | json (reason : String)
  | internal (reason : String)

def Failure.message : Failure → String
  | .call fault => s!"Tool error: {fault.message}"
  | .computation failure => s!"Calculator error: {failure.message}"
  | .settings reason => s!"Configuration error: {reason}"
  | .inputOutput reason => s!"I/O error: {reason}"
  | .json reason => s!"JSON error: {reason}"
  | .internal reason => s!"Internal error: {reason}"

inductive TransportFailure where
  | bind (address reason : String)
  | inputOutput (reason : String)
  | start (reason : String)
  | web (reason : String)
  | service (reason : String)

def TransportFailure.message : TransportFailure → String
  | .bind address reason => s!"Failed to bind to {address}: {reason}"
  | .inputOutput reason => s!"IO error: {reason}"
  | .start reason => s!"Server initialization error: {reason}"
  | .web reason => s!"HTTP error: {reason}"
  | .service reason => s!"Service error: {reason}"

end Calculator.Server
