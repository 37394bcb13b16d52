import Calculator.Proofs.Settings.Transport
import Calculator.Request.BatchHash
import Mathlib.Logic.Function.Basic

/-!
# Variables and their settings

Every variable is for one setting, and a setting depends on its own variables alone. A limit is the
number that its variable writes, and the default if the variable writes none; no environment makes
the limit of a batch zero. The switches for timestamps and for web browsers are off for the same
texts, and the one for symbolic links only for one of them.
-/

namespace Calculator

open Text (SpellsWord)

inductive Setting where
  | name
  | version
  | logLevel
  | logTimestamps
  | transport
  | rootPath
  | allowSymlinks
  | maxBatchSize
  | maxFileSize
deriving DecidableEq, Repr

def Setting.ofVariable? : String → Option Setting
  | "MCP_SERVER_NAME" => some .name
  | "MCP_LOG_LEVEL" => some .logLevel
  | "MCP_LOG_TIMESTAMPS" => some .logTimestamps
  | "MCP_TRANSPORT" => some .transport
  | "MCP_TCP_HOST" => some .transport
  | "MCP_TCP_PORT" => some .transport
  | "MCP_HTTP_HOST" => some .transport
  | "MCP_HTTP_PORT" => some .transport
  | "MCP_HTTP_PATH" => some .transport
  | "MCP_HTTP_CORS" => some .transport
  | "MCP_ROOT_PATH" => some .rootPath
  | "MCP_ALLOW_SYMLINKS" => some .allowSymlinks
  | "MCP_MAX_BATCH_SIZE" => some .maxBatchSize
  | "MCP_MAX_FILE_SIZE" => some .maxFileSize
  | _ => none

namespace Settings

variable {s s' : Settings}

def AgreesOn (s s' : Settings) : Setting → Prop
  | .name => s.name = s'.name
  | .version => s.version = s'.version
  | .logLevel => s.logLevel = s'.logLevel
  | .logTimestamps => s.logTimestamps = s'.logTimestamps
  | .transport => s.transport = s'.transport
  | .rootPath => s.files.rootPath = s'.files.rootPath
  | .allowSymlinks => s.files.allowSymlinks = s'.files.allowSymlinks
  | .maxBatchSize => s.limits.maxBatchSize = s'.limits.maxBatchSize
  | .maxFileSize => s.limits.maxFileSize = s'.limits.maxFileSize

theorem eq_of_agreesOn (h : ∀ x, s.AgreesOn s' x) : s = s' := by
  obtain ⟨name, version, logLevel, logTimestamps, transport, ⟨rootPath, allowSymlinks⟩,
    maxBatchSize, maxFileSize⟩ := s
  obtain rfl : name = s'.name := h .name
  obtain rfl : version = s'.version := h .version
  obtain rfl : logLevel = s'.logLevel := h .logLevel
  obtain rfl : logTimestamps = s'.logTimestamps := h .logTimestamps
  obtain rfl : transport = s'.transport := h .transport
  obtain rfl : rootPath = s'.files.rootPath := h .rootPath
  obtain rfl : allowSymlinks = s'.files.allowSymlinks := h .allowSymlinks
  obtain rfl : maxBatchSize = s'.limits.maxBatchSize := h .maxBatchSize
  obtain rfl : maxFileSize = s'.limits.maxFileSize := h .maxFileSize
  rfl

end Settings

/-- What a variable says about a limit: the number that it writes, or the default if it writes none
from `least` on that fits 64 bits. -/
structure ReadsLimit (least : Nat) (given : Option String) (default limit : UInt64) : Prop where
  written : ∀ s ∈ given, ∀ n < UInt64.size, least ≤ n → WritesNat n s → limit.toNat = n
  fallback : (∀ s ∈ given, ∀ n < UInt64.size, least ≤ n → ¬WritesNat n s) → limit = default

namespace Environment

variable {env env' : Environment} {least : Nat} {given : Option String}
  {default limit : UInt64} {x : Setting} {v : String}

/-- A setting depends on its own variables alone. -/
theorem settings_congr (h : ∀ name, Setting.ofVariable? name = some x → env' name = env name) :
    (settings env').AgreesOn (settings env) x := by
  cases x with
  | version => rfl
  | name => exact congrArg (Option.getD · _) (h "MCP_SERVER_NAME" rfl)
  | logLevel => exact congrArg (Option.getD · _) (h "MCP_LOG_LEVEL" rfl)
  | logTimestamps => exact congrArg (fun given => (given.map isOn).getD true) (h
      "MCP_LOG_TIMESTAMPS" rfl)
  | rootPath => exact h "MCP_ROOT_PATH" rfl
  | allowSymlinks => exact congrArg (fun given => (given.map isOnExact).getD true) (h
      "MCP_ALLOW_SYMLINKS" rfl)
  | maxBatchSize => simp only [Settings.AgreesOn, settings, h "MCP_MAX_BATCH_SIZE" rfl]
  | maxFileSize => simp only [Settings.AgreesOn, settings, h "MCP_MAX_FILE_SIZE" rfl]
  | transport =>
    have hvariables : ∀ kind : TransportKind, ∀ name ∈ kind.variableNames,
        Setting.ofVariable? name = some .transport := by
      intro kind
      cases kind <;> decide
    exact transport_congr (h "MCP_TRANSPORT" rfl) fun name hname => h name (hvariables _ name hname)

theorem settings_update (env : Environment) {name : String} (value : Option String)
    (h : Setting.ofVariable? name ≠ some x) :
    (settings (Function.update env name value)).AgreesOn (settings env) x := by
  refine settings_congr fun other hother => ?_
  rw [Function.update_of_ne]
  rintro rfl
  exact h hother

theorem readNat?_of_given {n : Nat} (h : given.bind (readNat? UInt64.size) = some n) :
    ∃ s ∈ given, WritesNat n s ∧ n < UInt64.size := by
  obtain ⟨s, hs, hn⟩ := Option.bind_eq_some_iff.1 h
  exact ⟨s, hs, readNat?_eq_some_iff.1 hn⟩

theorem readsLimit (hread : ∀ n, given.bind (readNat? UInt64.size) = some n →
    least ≤ n → limit = UInt64.ofNat n)
    (hother : (∀ n, given.bind (readNat? UInt64.size) = some n → n < least) → limit = default) :
    ReadsLimit least given default limit := by
  constructor
  · intro s hs n hn hleast hwrites
    have hnumber : given.bind (readNat? UInt64.size) = some n :=
      Option.bind_eq_some_iff.2 ⟨s, hs, readNat?_eq_some_iff.2 ⟨hwrites, hn⟩⟩
    rw [hread n hnumber hleast]
    exact UInt64.toNat_ofNat_of_lt' hn
  · intro h
    refine hother fun n hn => Nat.lt_of_not_le fun hleast => ?_
    obtain ⟨s, hs, hwrites, hlt⟩ := readNat?_of_given hn
    exact h s hs n hlt hleast hwrites

theorem readsLimit_maxBatchSize (env : Environment) :
    ReadsLimit 1 (env "MCP_MAX_BATCH_SIZE") 1000 (settings env).limits.maxBatchSize := by
  refine readsLimit (fun n hn hleast => ?_) fun hzero => ?_
  · simp only [settings, hn]
    exact if_neg (Nat.ne_of_gt hleast)
  · simp only [settings]
    split
    · next n hn => exact if_pos (Nat.lt_one_iff.1 (hzero n hn))
    · rfl

theorem readsLimit_maxFileSize (env : Environment) :
    ReadsLimit 0 (env "MCP_MAX_FILE_SIZE") 1073741824 (settings env).limits.maxFileSize := by
  refine readsLimit (fun n hn _ => ?_) fun hzero => ?_
  · simp only [settings, hn]
  · simp only [settings]
    split
    · next n hn => exact absurd (hzero n hn) (Nat.not_lt_zero n)
    · rfl

theorem least_le_of_readsLimit (h : ReadsLimit least given default limit)
    (hdefault : least ≤ default.toNat) :
    least ≤ limit.toNat := by
  by_cases hwritten : ∃ s ∈ given, ∃ n < UInt64.size, least ≤ n ∧ WritesNat n s
  · obtain ⟨s, hs, n, hn, hleast, hwrites⟩ := hwritten
    rwa [h.written s hs n hn hleast hwrites]
  · rw [h.fallback]
    · exact hdefault
    · intro s hs n hn hleast hwrites
      exact hwritten ⟨s, hs, n, hn, hleast, hwrites⟩

end Environment

namespace BatchRequest

variable {settings : Settings} {r : BatchRequest}

theorem report_of_checkBatch (tree : FileTree)
    (h : settings.limits.checkBatch r.inputs.length = .ok ()) :
    ∃ report, r.report settings tree = .ok report := by
  simp only [report, h]
  exact ⟨_, rfl⟩

theorem report_of_tooMany (tree : FileTree)
    (h : settings.limits.maxBatchSize.toNat < r.inputs.length) :
    r.report settings tree =
      .error (.validation "input_list"
        (.batchWithinLimit r.inputs.length settings.limits.maxBatchSize)) := by
  have hnonempty : r.inputs.length ≠ 0 := Nat.ne_of_gt (Nat.zero_lt_of_lt h)
  simp only [report, Limits.checkBatch, hnonempty, h, if_false, if_true]
  rfl

end BatchRequest

namespace Environment

/-- Every environment gives settings. The limits are the numbers that their variables write, and the
defaults where these write none; a batch may always have one input, and is refused above the limit.
A setting depends on its own variables alone, so a variable that is set, changed or removed changes
nothing but the setting that it is for. -/
theorem settings_confined (env : Environment) :
    1 ≤ (settings env).limits.maxBatchSize.toNat ∧
    ReadsLimit 1 (env "MCP_MAX_BATCH_SIZE") 1000 (settings env).limits.maxBatchSize ∧
    ReadsLimit 0 (env "MCP_MAX_FILE_SIZE") 1073741824 (settings env).limits.maxFileSize ∧
    (∀ (x : Setting) (env' : Environment), (∀ name, Setting.ofVariable? name = some x →
      env' name = env name) →
      (settings env').AgreesOn (settings env) x) ∧
    (∀ (x : Setting) (name : String) (value : Option String), Setting.ofVariable? name ≠ some x →
      (settings (Function.update env name value)).AgreesOn (settings env) x) ∧
    (∀ (name : String) (value : Option String), Setting.ofVariable? name = none →
      settings (Function.update env name value) = settings env) ∧
    ∀ (tree : FileTree) (r : BatchRequest),
      (r.inputs.length = 1 → ∃ report, r.report (settings env) tree = .ok report) ∧
      ((settings env).limits.maxBatchSize.toNat < r.inputs.length → r.report (settings env) tree =
        .error (.validation "input_list" (.batchWithinLimit r.inputs.length
          (settings env).limits.maxBatchSize))) := by
  have hbatch := readsLimit_maxBatchSize env
  have hone : 1 ≤ (settings env).limits.maxBatchSize.toNat :=
    least_le_of_readsLimit hbatch (by decide)
  refine ⟨hone, hbatch, readsLimit_maxFileSize env, fun x env' => settings_congr,
    fun x name value => settings_update env value, fun name value hname => ?_,
    fun tree r => ⟨fun hlength => ?_, BatchRequest.report_of_tooMany tree⟩⟩
  · refine Settings.eq_of_agreesOn fun x => settings_update env value ?_
    rw [hname]
    exact nofun
  · refine BatchRequest.report_of_checkBatch tree ((Limits.checkBatch_eq_ok_iff _ _).2 ?_)
    rw [hlength]
    exact ⟨Nat.le_refl 1, hone⟩

theorem isOn_eq_false_iff : isOn v = false ↔ SpellsWord v "false" ∨ v = "0" := by
  have hword : Text.lower v = "false" ↔ SpellsWord v "false" :=
    Text.lower_eq_iff (by simp [Text.isPlainLetter])
  rw [← hword]
  simp only [isOn, Bool.and_eq_false_iff, bne_eq_false_iff_eq]

theorem isOnExact_eq_false_iff : isOnExact v = false ↔ v = "false" := by
  simp only [isOnExact, bne_eq_false_iff_eq]

/-- One text turns the timestamps and the answers to web browsers off or on together: it turns them
off if it is `0` or spells `false` in letters of any case. Symbolic links are refused for `false` in
small letters alone. -/
theorem switches_of_value (env : Environment) (v : String) : ∃ e : HttpEndpoint,
    (settings (Function.update (Function.update env "MCP_TRANSPORT" (some "http")) "MCP_HTTP_CORS"
      (some v))).transport = .http e ∧
    (settings (Function.update env "MCP_LOG_TIMESTAMPS" (some v))).logTimestamps = e.enableCors ∧
    (e.enableCors = false ↔ SpellsWord v "false" ∨ v = "0") ∧
    ((settings (Function.update env "MCP_ALLOW_SYMLINKS" (some v))).files.allowSymlinks = false ↔
      v = "false") ∧
    ((settings (Function.update env "MCP_ALLOW_SYMLINKS" (some v))).files.allowSymlinks =
      e.enableCors ↔
      v = "false" ∨ ¬(SpellsWord v "false" ∨ v = "0")) := by
  have hsymlinks :
      (settings (Function.update env "MCP_ALLOW_SYMLINKS" (some v))).files.allowSymlinks =
        isOnExact v := by
    simp [settings]
  have htimestamps :
      (settings (Function.update env "MCP_LOG_TIMESTAMPS" (some v))).logTimestamps = isOn v := by
    simp [settings]
  have hcors : (httpEndpoint (Function.update (Function.update env "MCP_TRANSPORT" (some "http"))
    "MCP_HTTP_CORS"
      (some v))).enableCors = isOn v := by
    simp [httpEndpoint]
  refine ⟨_, transport_of_http ?_, ?_, ?_, ?_, ?_⟩
  · simp only [transportName, Function.update_of_ne (by decide : "MCP_TRANSPORT" ≠ "MCP_HTTP_CORS"),
      Function.update_self, Option.getD_some]
    decide
  · rw [htimestamps, hcors]
  · rw [hcors, isOn_eq_false_iff]
  · rw [hsymlinks, isOnExact_eq_false_iff]
  · rw [hsymlinks, hcors, ← isOn_eq_false_iff, ← isOnExact_eq_false_iff]
    have hboth : isOnExact v = false → isOn v = false := by
      intro h
      rw [isOn_eq_false_iff, isOnExact_eq_false_iff.1 h]
      exact .inl rfl
    cases hexact : isOnExact v with
    | false => simp [hboth hexact]
    | true => cases isOn v <;> simp

def capitalSwitches : Environment :=
  ofAssignments [
    ("MCP_TRANSPORT", "http"),
    ("MCP_HTTP_CORS", "FALSE"),
    ("MCP_LOG_TIMESTAMPS", "FALSE"),
    ("MCP_ALLOW_SYMLINKS", "FALSE")]

/-- A text that turns the other two switches off leaves symbolic links allowed. -/
theorem symlinks_stay_allowed :
    (settings capitalSwitches).transport = .http ⟨8080, "127.0.0.1", "/mcp", false⟩ ∧
    (settings capitalSwitches).logTimestamps = false ∧
    (settings capitalSwitches).files.allowSymlinks = true := by
  decide +kernel

end Environment

end Calculator
