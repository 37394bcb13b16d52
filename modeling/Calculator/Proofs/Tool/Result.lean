import Calculator.Proofs.Json.Value
import Calculator.Proofs.Tool.Answer

/-!
# The shape of every result

A call fails for an unknown tool and for arguments that are no object, and in no other way. Every
other call has a result with one text. A result is marked as an error when its text says so, and it
holds a document when it is none and a document was asked for.
-/

namespace Calculator

open Request (Arguments)

variable {settings : Settings} {tree : FileTree} {name : String} {v : Json}
  {args : Arguments} {tool : Tool} {format : ResponseFormat} {report : Report} {failure : Failure}

def errorMark : String := "Error: "

theorem errorMark_prefix_ofFailure (failure : Failure) :
    errorMark.toList <+: (ToolResult.ofFailure failure).text.toList := by
  refine ⟨failure.message.toList, ?_⟩
  rw [← String.toList_append]
  rfl

theorem not_errorMark_prefix_of_head? {c : Char} {s : String} (h : s.toList.head? = some c)
    (hc : c ≠ 'E') :
    ¬errorMark.toList <+: s.toList := by
  rintro ⟨rest, hrest⟩
  rw [← hrest] at h
  exact hc (by simpa [errorMark] using h.symm)

theorem head?_markdown (report : Report) : report.markdown.toList.head? = some '#' := by
  have hlines : ∃ lines, report.markdownLines = report.heading :: "" :: lines := ⟨_, rfl⟩
  obtain ⟨lines, hlines⟩ := hlines
  have hheading : report.heading.toList.head? = some '#' := by
    unfold Report.heading
    split
    · simp only [String.toList_append]
      rfl
    · simp only [String.toList_append]
      rfl
  rw [Report.markdown, hlines, String.intercalate_cons_cons, String.toList_append,
    String.toList_append, List.append_assoc, List.head?_append, hheading]
  rfl

theorem head?_documentText (report : Report) : report.documentText.toList.head? = some '\x7b' := by
  rw [Report.documentText, Json.prettyText, String.toList_ofList]
  rfl

namespace ToolResult

/-- What a result of a call shows: one text, marked as an error if it is one, and a document if one
was asked for and there is no error. -/
structure IsShaped (requested : Outcome ResponseFormat) (r : ToolResult) : Prop where
  content : r.json.get? "content" =
    some (.array [.ofMembers [("type", .string "text"), ("text", .string r.text)]])
  isError : r.json.get? "isError" = some (.bool r.isError)
  structured : r.json.get? "structuredContent" = r.structured
  isError_iff : r.isError = true ↔ errorMark.toList <+: r.text.toList
  structured_iff : r.structured.isSome = true ↔ r.isError = false ∧ requested = .ok .json

theorem json_members (r : ToolResult) :
    r.json.get? "content" =
      some (.array [.ofMembers [("type", .string "text"), ("text", .string r.text)]]) ∧
    r.json.get? "isError" = some (.bool r.isError) ∧
    r.json.get? "structuredContent" = r.structured := by
  obtain ⟨text, isError, structured⟩ := r
  cases structured with
  | none =>
    refine ⟨Json.get?_ofMembers ?_ ?_, Json.get?_ofMembers ?_ ?_, Json.get?_ofMembers_eq_none ?_⟩
      <;> simp
  | some v =>
    refine ⟨Json.get?_ofMembers ?_ ?_, Json.get?_ofMembers ?_ ?_, Json.get?_ofMembers ?_ ?_⟩
      <;> simp

theorem isShaped_ofFailure (requested : Outcome ResponseFormat) (failure : Failure) :
    (ofFailure failure).IsShaped requested := by
  obtain ⟨hcontent, herror, hstructured⟩ := json_members (ofFailure failure)
  refine ⟨hcontent, herror, hstructured, ?_, ?_⟩
  · exact iff_of_true rfl (errorMark_prefix_ofFailure failure)
  · exact iff_of_false Bool.false_ne_true fun h => Bool.false_ne_true h.1.symm

theorem isShaped_ofReport (format : ResponseFormat) (report : Report) :
    (ofReport format report).IsShaped (.ok format) := by
  obtain ⟨hcontent, herror, hstructured⟩ := json_members (ofReport format report)
  refine ⟨hcontent, herror, hstructured, ?_, ?_⟩
  · cases format with
    | markdown =>
      exact iff_of_false Bool.false_ne_true
        (not_errorMark_prefix_of_head? (head?_markdown report) (by decide))
    | json =>
      exact iff_of_false Bool.false_ne_true
        (not_errorMark_prefix_of_head? (head?_documentText report) (by decide))
  · cases format with
    | markdown => exact iff_of_false Bool.false_ne_true fun h => (nomatch h.2)
    | json => exact iff_of_true rfl ⟨rfl, rfl⟩

end ToolResult

namespace Tool

theorem isShaped_run (settings : Settings) (tree : FileTree) (tool : Tool) (args : Arguments) :
    (tool.run settings tree args).IsShaped (requestedFormat args) := by
  rw [run_eq]
  cases hanswer : tool.answer settings tree args with
  | error failure => exact ToolResult.isShaped_ofFailure (requestedFormat args) failure
  | ok answer =>
    obtain ⟨format, report⟩ := answer
    rw [(answers_of_answer hanswer).requestedFormat]
    exact ToolResult.isShaped_ofReport format report

theorem value_data_run (settings : Settings) (tree : FileTree) (tool : Tool) (args : Arguments) :
    (tool.run settings tree args).data.value = .ok (tool.run settings tree args).json := by
  rw [run_eq, ToolResult.value_data]
  rcases tool.answer settings tree args with failure | ⟨_ | _, report⟩
  · rfl
  · rfl
  · simp [ToolResult.ofOutcome, ToolResult.ofReport, Report.value]

theorem call_name (settings : Settings) (tree : FileTree) (tool : Tool) (v : Json) :
    call settings tree tool.name v = tool.runValue settings tree v := by
  have hname : (Choice.ofName? tool.name : Option Tool) = some tool := Choice.ofName?_name tool
  rw [call, hname]

theorem call_object (settings : Settings) (tree : FileTree) (tool : Tool) (args : Arguments) :
    call settings tree tool.name (.object args) =
      .ok (.ofOutcome (tool.answer settings tree args)) := by
  rw [call_name, runValue_object, run_eq]

theorem call_of_notMem (h : name ∉ Choice.names Tool) (settings : Settings)
    (tree : FileTree) (v : Json) :
    call settings tree name v = .error (.unknownTool name) := by
  have hname : (Choice.ofName? name : Option Tool) = none := by
    cases htool : (Choice.ofName? name : Option Tool) with
    | none => rfl
    | some tool =>
      rw [← Choice.ofName?_eq_some_iff.1 htool] at h
      exact absurd (List.mem_map_of_mem (Choice.mem_all tool)) h
  rw [call, hname]

theorem runValue_of_isArguments (h : v = .object args ∨ v = .null ∧ args = []) (settings : Settings)
    (tree : FileTree) (tool : Tool) : tool.runValue settings tree v =
      .ok (tool.run settings tree args) := by
  rcases h with rfl | ⟨rfl, rfl⟩
  · exact runValue_object tool settings tree args
  · exact runValue_null tool settings tree

theorem runValue_of_not_object (hnull : v ≠ .null) (hobject : ∀ args, v ≠ .object args)
    (settings : Settings) (tree : FileTree) (tool : Tool) : tool.runValue settings tree v =
      .error (.notObject tool v) := by
  cases v with
  | null => exact absurd rfl hnull
  | object args => exact absurd rfl (hobject args)
  | bool _ | whole _ | float _ | string _ | array _ => rfl

theorem call_cases (settings : Settings) (tree : FileTree) (tool : Tool) (v : Json) :
    (∃ args, (v = .object args ∨ v = .null ∧ args = []) ∧
      call settings tree tool.name v = .ok (tool.run settings tree args)) ∨
    ((v ≠ .null ∧ ∀ args, v ≠ .object args) ∧
      call settings tree tool.name v = .error (.notObject tool v)) := by
  rw [call_name]
  by_cases hnull : v = .null
  · have hargs : v = .object [] ∨ v = .null ∧ ([] : Arguments) = [] := .inr ⟨hnull, rfl⟩
    exact .inl ⟨[], hargs, runValue_of_isArguments hargs settings tree tool⟩
  by_cases hobject : ∃ args, v = .object args
  · obtain ⟨args, hv⟩ := hobject
    exact .inl ⟨args, .inl hv, runValue_of_isArguments (.inl hv) settings tree tool⟩
  · have hother : ∀ args, v ≠ .object args := fun args hv => hobject ⟨args, hv⟩
    exact .inr ⟨⟨hnull, hother⟩, runValue_of_not_object hnull hother settings tree tool⟩

theorem exists_name_of_mem (h : name ∈ Choice.names Tool) : ∃ tool : Tool, tool.name = name := by
  obtain ⟨tool, -, htool⟩ := List.mem_map.1 h
  exact ⟨tool, htool⟩

theorem call_unknownTool_iff :
    (∃ shown, call settings tree name v = .error (.unknownTool shown)) ↔
    name ∉ Choice.names Tool := by
  constructor
  · rintro ⟨shown, hcall⟩ hname
    obtain ⟨tool, rfl⟩ := exists_name_of_mem hname
    rcases call_cases settings tree tool v with ⟨args, -, hcall'⟩ | ⟨-, hcall'⟩
    · exact nomatch hcall.symm.trans hcall'
    · exact nomatch hcall.symm.trans hcall'
  · intro hname
    exact ⟨name, call_of_notMem hname settings tree v⟩

theorem call_invalidArguments_iff :
    (∃ text, call settings tree name v = .error (.invalidArguments text)) ↔
      name ∈ Choice.names Tool ∧ v ≠ .null ∧ ∀ args, v ≠ .object args := by
  constructor
  · rintro ⟨text, hcall⟩
    by_cases hname : name ∈ Choice.names Tool
    · obtain ⟨tool, rfl⟩ := exists_name_of_mem hname
      rcases call_cases settings tree tool v with ⟨args, -, hcall'⟩ | ⟨hv, -⟩
      · exact nomatch hcall.symm.trans hcall'
      · exact ⟨hname, hv⟩
    · exact nomatch hcall.symm.trans (call_of_notMem hname settings tree v)
  · rintro ⟨hname, hnull, hobject⟩
    obtain ⟨tool, rfl⟩ := exists_name_of_mem hname
    rw [call_name, runValue_of_not_object hnull hobject]
    exact ⟨_, rfl⟩

theorem call_ne_internal (text : String) : call settings tree name v ≠ .error (.internal text) := by
  intro hcall
  by_cases hname : name ∈ Choice.names Tool
  · obtain ⟨tool, rfl⟩ := exists_name_of_mem hname
    rcases call_cases settings tree tool v with ⟨args, -, hcall'⟩ | ⟨-, hcall'⟩
    · exact nomatch hcall.symm.trans hcall'
    · exact nomatch hcall.symm.trans hcall'
  · exact nomatch hcall.symm.trans (call_of_notMem hname settings tree v)

theorem exists_result (hname : name ∈ Choice.names Tool)
    (hv : v = .object args ∨ v = .null ∧ args = []) (settings : Settings) (tree : FileTree) :
    ∃ r, call settings tree name v = .ok r ∧ r.data.value = .ok r.json ∧
    r.IsShaped (requestedFormat args) := by
  obtain ⟨tool, rfl⟩ := exists_name_of_mem hname
  rw [call_name, runValue_of_isArguments hv]
  exact ⟨_, rfl, value_data_run settings tree tool args, isShaped_run settings tree tool args⟩

theorem call_null (settings : Settings) (tree : FileTree) (name : String) :
    call settings tree name .null = call settings tree name (.object []) := by
  by_cases hname : name ∈ Choice.names Tool
  · obtain ⟨tool, rfl⟩ := exists_name_of_mem hname
    rw [call_name, call_name, runValue_null, runValue_object]
  · rw [call_of_notMem hname, call_of_notMem hname]

/-- Every call is refused for its name, or for its arguments, or has a result of the one shape,
which is written as its document. -/
theorem call_refused_or_shaped (settings : Settings) (tree : FileTree) (name : String) (v : Json) :
    ((∃ shown, call settings tree name v = .error (.unknownTool shown)) ↔
      name ∉ Choice.names Tool) ∧
    ((∃ text, call settings tree name v = .error (.invalidArguments text)) ↔
      name ∈ Choice.names Tool ∧ v ≠ .null ∧ ∀ args, v ≠ .object args) ∧
    (∀ text, call settings tree name v ≠ .error (.internal text)) ∧
    (∀ args, name ∈ Choice.names Tool → (v = .object args ∨ v = .null ∧ args = []) →
      ∃ r, call settings tree name v = .ok r ∧ r.data.value = .ok r.json ∧
      r.IsShaped (requestedFormat args)) ∧
    call settings tree name .null = call settings tree name (.object []) :=
  ⟨call_unknownTool_iff, call_invalidArguments_iff, call_ne_internal,
    fun _ hname hv => exists_result hname hv settings tree, call_null settings tree name⟩

example : Choice.names Tool = ["calculator_basic_operation", "calculator_advanced_math",
    "calculator_trigonometric",
    "calculator_statistics", "calculator_unit_conversion", "calculator_hash_calculation",
    "calculator_hash_comparison", "calculator_batch_hash"] := rfl

end Tool

end Calculator
