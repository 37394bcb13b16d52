import Calculator.Report.Render
import Calculator.Request.AdvancedMath
import Calculator.Request.Arithmetic
import Calculator.Request.BatchHash
import Calculator.Request.Conversion
import Calculator.Request.Hash
import Calculator.Request.Statistics
import Calculator.Request.Trigonometry
import Calculator.Tool.Basic

/-!
# Calling tools

A tool reads its fields, computes a report, and answers in the form that was asked for. What goes
wrong on the way is an answer too, marked as an error. Only an unknown tool, or arguments that are
no object, have no answer at all. A report that cannot be written would be one more error, and an
answer that cannot be written no answer, but there are no such reports and answers.
-/

namespace Calculator

open Request (Arguments)

structure ToolResult where
  text : String
  isError : Bool
  structured : Option Json

namespace ToolResult

/-- The result for a report, unless the report cannot be written. -/
def present (format : ResponseFormat) (report : Report) : Outcome ToolResult := do
  let text ← report.render format
  match format with
  | .markdown => return ⟨text, false, none⟩
  | .json => return ⟨text, false, some (← report.toValue)⟩

def ofReport (format : ResponseFormat) (report : Report) : ToolResult :=
  match format with
  | .markdown => ⟨report.markdown, false, none⟩
  | .json => ⟨report.documentText, false, some report.value⟩

theorem present_eq (format : ResponseFormat) (report : Report) :
    present format report = .ok (ofReport format report) := by
  cases format with
  | markdown => rfl
  | json => simp only [present, report.render_json, report.toValue_eq,
      ofReport, bind, Except.bind, pure, Except.pure]

def ofFailure (failure : Failure) : ToolResult :=
  ⟨s!"Error: {failure.message}", true, none⟩

def ofOutcome : Outcome (ResponseFormat × Report) → ToolResult
  | .ok (format, report) => ofReport format report
  | .error failure => ofFailure failure

def data (r : ToolResult) : Json.Data :=
  .map ([
    (.text "content", .list [.map [(.text "type", .text "text"), (.text "text", .text r.text)]]),
    (.text "isError", .leaf (.bool r.isError))] ++
    r.structured.toList.map fun v => (.text "structuredContent", v.data))

def json (r : ToolResult) : Json :=
  .ofMembers ([
    ("content", .array [.ofMembers [("type", .string "text"), ("text", .string r.text)]]),
    ("isError", .bool r.isError)] ++
    r.structured.toList.map fun v => ("structuredContent", v))

/-- The data of a result are written as its document, where the report in it has its keys in
order. -/
theorem value_data (r : ToolResult) :
    r.data.value = .ok { r with structured := r.structured.map Json.sorted }.json := by
  cases h : r.structured <;>
    simp [data, json, h, Json.Data.value, Json.Data.itemValues, Json.Data.entryValues,
      Json.Data.text, Json.Data.asKey,
      Json.value_data, Json.ofMembers, Json.putAll, bind, Except.bind, pure, Except.pure]

end ToolResult

namespace Tool

def answer (tool : Tool) (settings : Settings) (tree : FileTree) (args : Arguments) :
    Outcome (ResponseFormat × Report) :=
  match tool with
  | .arithmetic => do
    let r ← ArithmeticRequest.ofArguments args
    return (r.format, ← r.report)
  | .advancedMath => do
    let r ← AdvancedMathRequest.ofArguments args
    return (r.format, ← r.report)
  | .trigonometry => do
    let r ← TrigonometryRequest.ofArguments args
    return (r.format, ← r.report)
  | .statistics => do
    let r ← StatisticsRequest.ofArguments args
    return (r.format, ← r.report)
  | .conversion => do
    let r ← ConversionRequest.ofArguments args
    return (r.format, ← r.report)
  | .hash => do
    let r ← HashRequest.ofArguments args
    return (r.format, ← r.report settings tree)
  | .comparison => do
    let r ← ComparisonRequest.ofArguments args
    return (r.hash.format, ← r.report settings tree)
  | .batchHash => do
    let r ← BatchRequest.ofArguments args
    return (r.format, ← r.report settings tree)

def run (tool : Tool) (settings : Settings) (tree : FileTree) (args : Arguments) : ToolResult :=
  match tool.answer settings tree args >>= fun (format, report) =>
    ToolResult.present format report with
  | .ok r => r
  | .error failure => .ofFailure failure

theorem run_eq (tool : Tool) (settings : Settings) (tree : FileTree) (args : Arguments) :
    tool.run settings tree args = .ofOutcome (tool.answer settings tree args) := by
  rw [run]
  cases tool.answer settings tree args with
  | error failure => rfl
  | ok answer => simp only [ToolResult.present_eq, ToolResult.ofOutcome, bind, Except.bind]

end Tool

inductive CallFault where
  | unknownTool (name : String)
  | invalidArguments (text : String)
  | internal (text : String)
deriving DecidableEq, Repr

namespace CallFault

def message : CallFault → String
  | .unknownTool name => s!"Tool not found: {name}"
  | .invalidArguments text => s!"Invalid arguments: {text}"
  | .internal text => s!"Internal error: {text}"

def isInternal : CallFault → Bool
  | .internal _ => true
  | _ => false

def notObject (tool : Tool) (v : Json) : CallFault :=
  .invalidArguments s!"expected a JSON object for {tool.name}, got {v.text}"

end CallFault

/-- A result that is handed out, if its document can be written. -/
def ToolResult.deliver (r : ToolResult) : Except CallFault ToolResult :=
  match r.data.value with
  | .ok _ => .ok r
  | .error fault => .error (.internal fault.message)

theorem ToolResult.deliver_eq (r : ToolResult) : r.deliver = .ok r := by
  rw [deliver, value_data]

namespace Tool

/-- Calls a tool with a value as its arguments; null stands for no arguments. -/
def runValue (tool : Tool) (settings : Settings) (tree : FileTree) :
    Json → Except CallFault ToolResult
  | .object args => (tool.run settings tree args).deliver
  | .null => (tool.run settings tree []).deliver
  | v => .error (.notObject tool v)

theorem runValue_object (tool : Tool) (settings : Settings) (tree : FileTree) (args : Arguments) :
    tool.runValue settings tree (.object args) = .ok (tool.run settings tree args) :=
  (tool.run settings tree args).deliver_eq

theorem runValue_null (tool : Tool) (settings : Settings) (tree : FileTree) :
    tool.runValue settings tree .null = .ok (tool.run settings tree []) :=
  (tool.run settings tree []).deliver_eq

def call (settings : Settings) (tree : FileTree) (name : String) (arguments : Json) :
    Except CallFault ToolResult :=
  match (Choice.ofName? name : Option Tool) with
  | some tool => tool.runValue settings tree arguments
  | none => .error (.unknownTool name)

end Tool

end Calculator
