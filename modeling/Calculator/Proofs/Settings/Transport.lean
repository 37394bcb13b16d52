import Calculator.Proofs.Settings.Environment
import Calculator.Proofs.Text.Casing
import Calculator.Settings.Reader

/-!
# The transport of an environment

The name of a transport is read in letters of any case, and any other name stands for the standard
streams. A transport reads the variables of its own kind only. It is spelled back by variables that
are read as the same transport, and so is every transport that an environment can give.
-/

namespace Calculator

open Text (SpellsWord)

namespace Transport

def kind : Transport → TransportKind
  | .stdio => .stdio
  | .tcp _ => .tcp
  | .http _ => .http

/-- The variables that spell a transport, with their values. -/
def assignments : Transport → List (String × String)
  | .stdio => [("MCP_TRANSPORT", "stdio")]
  | .tcp e => [
    ("MCP_TRANSPORT", "tcp"),
    ("MCP_TCP_HOST", e.host),
    ("MCP_TCP_PORT", toString e.port.toNat)]
  | .http e => [
    ("MCP_TRANSPORT", "http"),
    ("MCP_HTTP_HOST", e.host),
    ("MCP_HTTP_PORT", toString e.port.toNat),
    ("MCP_HTTP_PATH", e.rpcPath),
    ("MCP_HTTP_CORS", if e.enableCors then "true" else "false")]

def IsReadable : Transport → Prop
  | .http e => IsRpcPath e.rpcPath
  | _ => True

end Transport

def TransportKind.variableNames : TransportKind → List String
  | .stdio => []
  | .tcp => ["MCP_TCP_HOST", "MCP_TCP_PORT"]
  | .http => ["MCP_HTTP_HOST", "MCP_HTTP_PORT", "MCP_HTTP_PATH", "MCP_HTTP_CORS"]

namespace Environment

variable {env env' : Environment}

def ofAssignments (assignments : List (String × String)) : Environment :=
  fun name => assignments.lookup name

def transportName (env : Environment) : String :=
  (env "MCP_TRANSPORT").getD ""

/-- What a variable says about a port: the number that it writes, or the default if it writes no
port. -/
structure ReadsPort (given : Option String) (default port : UInt16) : Prop where
  written : ∀ s ∈ given, ∀ n < UInt16.size, WritesNat n (Text.trim s) → port.toNat = n
  fallback : (∀ s ∈ given, ∀ n < UInt16.size, ¬WritesNat n (Text.trim s)) → port = default

theorem lower_eq_name_iff (s : String) {kind : TransportKind} (hkind : kind ≠ .stdio) :
    Text.lower s = kind.name ↔ SpellsWord s kind.name := by
  apply Text.lower_eq_iff
  cases kind with
  | stdio => exact absurd rfl hkind
  | tcp => simp [TransportKind.name, Text.isPlainLetter]
  | http => simp [TransportKind.name, Text.isPlainLetter]

theorem spellsWord_name (kind : TransportKind) : SpellsWord kind.name kind.name := by
  cases kind <;> decide

def tcpEndpoint (env : Environment) : TcpEndpoint where
  port := match env "MCP_TCP_PORT" with
    | some s => readPort s Transport.defaultTcp.port
    | none => Transport.defaultTcp.port
  host := (env "MCP_TCP_HOST").getD Transport.defaultHost

def httpEndpoint (env : Environment) : HttpEndpoint where
  port := match env "MCP_HTTP_PORT" with
    | some s => readPort s Transport.defaultHttp.port
    | none => Transport.defaultHttp.port
  host := (env "MCP_HTTP_HOST").getD Transport.defaultHost
  rpcPath := ((env "MCP_HTTP_PATH").map rpcPath).getD Transport.defaultRpcPath
  enableCors := ((env "MCP_HTTP_CORS").map isOn).getD true

theorem transport_eq (env : Environment) : transport env =
    if SpellsWord env.transportName "tcp" then .tcp env.tcpEndpoint
    else if SpellsWord env.transportName "http" then .http env.httpEndpoint
    else .stdio := by
  have htcp := lower_eq_name_iff env.transportName (by decide : TransportKind.tcp ≠ .stdio)
  have hhttp := lower_eq_name_iff env.transportName (by decide : TransportKind.http ≠ .stdio)
  simp only [TransportKind.name] at htcp hhttp
  simp only [← htcp, ← hhttp]
  rfl

theorem transport_of_tcp (h : SpellsWord env.transportName "tcp") :
    transport env = .tcp env.tcpEndpoint := by
  rw [transport_eq, if_pos h]

theorem transport_of_http (h : SpellsWord env.transportName "http") :
    transport env = .http env.httpEndpoint := by
  have hother : ¬SpellsWord env.transportName "tcp" :=
    fun htcp => absurd (htcp.symm.trans h) (by decide)
  rw [transport_eq, if_neg hother, if_pos h]

theorem transport_of_other (htcp : ¬SpellsWord env.transportName "tcp")
    (hhttp : ¬SpellsWord env.transportName "http") : transport env = .stdio := by
  rw [transport_eq, if_neg htcp, if_neg hhttp]

theorem readsPort (given : Option String) (default : UInt16) : ReadsPort given default
    (match given with
      | some s => readPort s default
      | none => default) := by
  cases given with
  | none => exact ⟨nofun, fun _ => rfl⟩
  | some s =>
    constructor
    · rintro _ ⟨⟩ n hn hwrites
      simp only [readPort_of_writesNat hwrites hn]
      exact UInt16.toNat_ofNat_of_lt' hn
    · intro h
      exact readPort_of_not_writesNat (h s rfl)

theorem isRpcPath_httpEndpoint (env : Environment) : IsRpcPath env.httpEndpoint.rpcPath := by
  rw [httpEndpoint]
  cases env "MCP_HTTP_PATH" with
  | none => exact isRpcPath_default
  | some s => exact isRpcPath_rpcPath s

theorem isReadable_transport (env : Environment) : (transport env).IsReadable := by
  rw [transport_eq]
  split
  · trivial
  split
  · exact isRpcPath_httpEndpoint env
  · trivial

theorem isOn_of_switch (b : Bool) : isOn (if b then "true" else "false") = b := by
  cases b <;> decide +kernel

theorem transport_ofAssignments {t : Transport} (h : t.IsReadable) :
    transport (ofAssignments t.assignments) = t := by
  cases t with
  | stdio => exact transport_of_other (by decide) (by decide)
  | tcp e =>
    have hname : SpellsWord (ofAssignments (Transport.tcp e).assignments).transportName "tcp" :=
      spellsWord_name .tcp
    rw [transport_of_tcp hname]
    exact congrArg (fun port => Transport.tcp ⟨port, e.host⟩) (readPort_toString e.port _)
  | http e =>
    have hname : SpellsWord (ofAssignments (Transport.http e).assignments).transportName "http" :=
      spellsWord_name .http
    rw [transport_of_http hname]
    have hendpoint : (ofAssignments (Transport.http e).assignments).httpEndpoint =
        ⟨readPort (toString e.port.toNat) Transport.defaultHttp.port, e.host, rpcPath e.rpcPath,
          isOn (if e.enableCors then "true" else "false")⟩ := rfl
    rw [hendpoint, readPort_toString, rpcPath_of_isRpcPath h, isOn_of_switch]

theorem tcpEndpoint_congr (h : ∀ name ∈ TransportKind.tcp.variableNames, env' name = env name) :
    env'.tcpEndpoint = env.tcpEndpoint := by
  simp only [tcpEndpoint, h "MCP_TCP_HOST" (by decide), h "MCP_TCP_PORT" (by decide)]

theorem httpEndpoint_congr (h : ∀ name ∈ TransportKind.http.variableNames, env' name = env name) :
    env'.httpEndpoint = env.httpEndpoint := by
  simp only [httpEndpoint, h "MCP_HTTP_HOST" (by decide), h "MCP_HTTP_PORT" (by decide),
    h "MCP_HTTP_PATH" (by decide), h "MCP_HTTP_CORS" (by decide)]

theorem transport_congr (hname : env' "MCP_TRANSPORT" = env "MCP_TRANSPORT")
    (h : ∀ name ∈ (transport env).kind.variableNames, env' name = env name) :
      transport env' = transport env := by
  have hsame : env'.transportName = env.transportName := congrArg (Option.getD · "") hname
  by_cases htcp : SpellsWord env.transportName "tcp"
  · rw [transport_of_tcp htcp] at h ⊢
    rw [transport_of_tcp (hsame ▸ htcp), tcpEndpoint_congr h]
  by_cases hhttp : SpellsWord env.transportName "http"
  · rw [transport_of_http hhttp] at h ⊢
    rw [transport_of_http (hsame ▸ hhttp), httpEndpoint_congr h]
  · rw [transport_of_other htcp hhttp, transport_of_other (hsame ▸ htcp) (hsame ▸ hhttp)]

/-- A transport that is read from the environment is read again from the variables that spell it.
These transports are those whose path begins with a slash, has more to it and no blanks around it.
The name decides on the kind in letters of any case, a port that is not written as one is the
default of the kind, and no variable of another kind matters. -/
theorem transport_fixedPoint (env : Environment) :
    transport (ofAssignments (transport env).assignments) = transport env ∧
    (∀ t : Transport, t.IsReadable ↔ transport (ofAssignments t.assignments) = t) ∧
    (SpellsWord env.transportName "tcp" → ∃ port, ReadsPort (env "MCP_TCP_PORT") 3000 port ∧
      transport env = .tcp ⟨port, (env "MCP_TCP_HOST").getD "127.0.0.1"⟩) ∧
    (SpellsWord env.transportName "http" → ∃ port, ReadsPort (env "MCP_HTTP_PORT") 8080 port ∧
      transport env = .http ⟨port, (env "MCP_HTTP_HOST").getD "127.0.0.1",
        ((env "MCP_HTTP_PATH").map rpcPath).getD "/mcp",
        ((env "MCP_HTTP_CORS").map isOn).getD true⟩) ∧
    ((∀ kind : TransportKind, ¬SpellsWord env.transportName kind.name) → transport env = .stdio) ∧
    ∀ env', env' "MCP_TRANSPORT" = env "MCP_TRANSPORT" →
      (∀ name ∈ (transport env).kind.variableNames, env' name = env name) →
      transport env' = transport env := by
  refine ⟨transport_ofAssignments (isReadable_transport env), ?_, ?_,
    ?_, ?_, fun _ => transport_congr⟩
  · intro t
    constructor
    · exact transport_ofAssignments
    · intro h
      rw [← h]
      exact isReadable_transport _
  · intro h
    exact ⟨_, readsPort (env "MCP_TCP_PORT") 3000, transport_of_tcp h⟩
  · intro h
    exact ⟨_, readsPort (env "MCP_HTTP_PORT") 8080, transport_of_http h⟩
  · intro h
    exact transport_of_other (h .tcp) (h .http)

end Environment

end Calculator
