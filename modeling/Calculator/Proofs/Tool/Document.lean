import Calculator.Proofs.Report.Document
import Calculator.Proofs.Tool.Result

/-!
# The text and the document of an answer

A report nests lists and mappings at most twice. So the text of an answer that is given as a
document is read as that document, and lists its members in the order in which the tool has added
them.
-/

namespace Calculator

open Request (Arguments)
open Report.Field (NestsWithin nestsWithin_floats)

variable {settings : Settings} {tree : FileTree} {args : Arguments} {name : String}
  {report : Report} {n : Nat}

theorem ArithmeticRequest.nestsWithin_report {r : ArithmeticRequest} (h : r.report = .ok report) :
    report.NestsWithin 2 := by
  obtain ⟨result, -, h⟩ := bind_eq_ok_iff.1 h
  cases h
  refine ⟨.float result, ?_⟩
  simp

theorem AdvancedMathRequest.nestsWithin_extraDetails {r : AdvancedMathRequest} :
    ∀ entry ∈ r.extraDetails, entry.2.NestsWithin n := by
  unfold extraDetails
  split <;> simp

theorem AdvancedMathRequest.nestsWithin_report {r : AdvancedMathRequest}
    (h : r.report = .ok report) :
    report.NestsWithin 2 := by
  obtain ⟨result, -, h⟩ := bind_eq_ok_iff.1 h
  cases h
  refine ⟨.float result, ?_⟩
  rw [List.forall_mem_append]
  exact ⟨by simp, nestsWithin_extraDetails⟩

theorem TrigonometryRequest.nestsWithin_report {r : TrigonometryRequest}
    (h : r.report = .ok report) :
    report.NestsWithin 2 := by
  obtain ⟨result, -, h⟩ := bind_eq_ok_iff.1 h
  cases h
  refine ⟨.float result, ?_⟩
  simp [details]

theorem StatisticsRequest.nestsWithin_summaryDetails {s : Statistics.Summary} :
    ∀ entry ∈ summaryDetails s, entry.2.NestsWithin n := by
  simp [summaryDetails, ifAny, or_imp, forall_and]

theorem StatisticsRequest.nestsWithin_answerField (answer : StatisticsOperation.Answer) :
    (answerField answer).NestsWithin (n + 1) := by
  cases answer with
  | value x => exact .float x
  | summary s => exact .map nestsWithin_summaryDetails

theorem StatisticsRequest.nestsWithin_report {r : StatisticsRequest} (h : r.report = .ok report) :
    report.NestsWithin 2 := by
  obtain ⟨answer, -, h⟩ := bind_eq_ok_iff.1 h
  cases h
  refine ⟨nestsWithin_answerField answer, ?_⟩
  simp [details, nestsWithin_floats, or_imp, forall_and]

theorem ConversionRequest.nestsWithin_report {r : ConversionRequest} (h : r.report = .ok report) :
    report.NestsWithin 2 := by
  obtain ⟨conversion, -, h⟩ := bind_eq_ok_iff.1 h
  cases h
  refine ⟨.float conversion.value, ?_⟩
  simp

theorem HashMethod.nestsWithin_details {m : HashMethod} :
    ∀ entry ∈ m.details, entry.2.NestsWithin n := by
  simp [details]

theorem HashOutcome.nestsWithin_details {o : HashOutcome} :
    ∀ entry ∈ o.details, entry.2.NestsWithin n := by
  unfold details
  split <;> simp

theorem HashRequest.nestsWithin_report {r : HashRequest} (h : r.report settings tree = .ok report) :
    report.NestsWithin 2 := by
  obtain ⟨o, -, h⟩ := bind_eq_ok_iff.1 h
  cases h
  refine ⟨.string o.digest, ?_⟩
  rw [List.forall_mem_append]
  exact ⟨HashMethod.nestsWithin_details, HashOutcome.nestsWithin_details⟩

theorem ComparisonRequest.nestsWithin_report {r : ComparisonRequest}
    (h : r.report settings tree = .ok report) :
    report.NestsWithin 2 := by
  obtain ⟨o, -, h⟩ := bind_eq_ok_iff.1 h
  cases h
  refine ⟨.map (by simp), ?_⟩
  rw [List.forall_mem_append, List.forall_mem_append]
  exact ⟨⟨HashMethod.nestsWithin_details, by simp⟩, HashOutcome.nestsWithin_details⟩

theorem BatchRequest.nestsWithin_resultEntry (item : BatchItem) :
    (resultEntry item).NestsWithin (n + 1) := by
  apply NestsWithin.map
  rw [List.forall_mem_cons]
  refine ⟨.string item.input, ?_⟩
  split
  · next o _ =>
    rw [List.forall_mem_cons, List.forall_mem_map]
    exact ⟨.string o.digest, fun file _ => .size file.2⟩
  · simp

theorem BatchRequest.nestsWithin_inputEntry (item : BatchItem) :
    (inputEntry item).NestsWithin (n + 1) := by
  apply NestsWithin.map
  rw [List.forall_mem_cons]
  refine ⟨.string item.input, ?_⟩
  split
  · exact HashOutcome.nestsWithin_details
  · simp

theorem BatchRequest.nestsWithin_report {r : BatchRequest}
    (h : r.report settings tree = .ok report) :
    report.NestsWithin 2 := by
  obtain ⟨_, -, h⟩ := bind_eq_ok_iff.1 h
  cases h
  have hresults : (Report.Field.list ((r.items settings tree).map resultEntry)).NestsWithin 2 := by
    apply NestsWithin.list
    rw [List.forall_mem_map]
    intro item _
    exact nestsWithin_resultEntry item
  have hinputs : (Report.Field.list ((r.items settings tree).map inputEntry)).NestsWithin 2 := by
    apply NestsWithin.list
    rw [List.forall_mem_map]
    intro item _
    exact nestsWithin_inputEntry item
  refine ⟨hresults, ?_⟩
  rw [List.forall_mem_append]
  exact ⟨HashMethod.nestsWithin_details, by simp [hinputs]⟩

namespace Tool

theorem Answers.nestsWithin {tool : Tool} {format : ResponseFormat}
    (h : Answers settings tree args tool format report) : report.NestsWithin 2 := by
  cases h with
  | arithmetic _ hreport => exact ArithmeticRequest.nestsWithin_report hreport
  | advancedMath _ hreport => exact AdvancedMathRequest.nestsWithin_report hreport
  | trigonometry _ hreport => exact TrigonometryRequest.nestsWithin_report hreport
  | statistics _ hreport => exact StatisticsRequest.nestsWithin_report hreport
  | conversion _ hreport => exact ConversionRequest.nestsWithin_report hreport
  | hash _ hreport => exact HashRequest.nestsWithin_report hreport
  | comparison _ hreport => exact ComparisonRequest.nestsWithin_report hreport
  | batchHash _ hreport => exact BatchRequest.nestsWithin_report hreport

theorem exists_report_of_run {tool : Tool} (hformat : requestedFormat args = .ok .json)
    (hok : (tool.run settings tree args).isError = false) :
    ∃ report, tool.answer settings tree args = .ok (.json, report) ∧ report.NestsWithin 2 ∧
      tool.run settings tree args = .ofReport .json report := by
  rw [run_eq] at hok ⊢
  cases hanswer : tool.answer settings tree args with
  | error failure =>
    -- A failure is marked as an error, whatever form was asked for.
    rw [hanswer] at hok
    cases hok
  | ok answer =>
    obtain ⟨format, report⟩ := answer
    have hanswers := answers_of_answer hanswer
    obtain rfl : ResponseFormat.json = format :=
      Except.ok.inj (hformat.symm.trans hanswers.requestedFormat)
    exact ⟨report, rfl, hanswers.nestsWithin, rfl⟩

/-- An answer that is given as a document has it twice, as a value and as a text that lists the
operation, the result and the details in this order. -/
theorem call_document_text {r : ToolResult} (hcall : call settings tree name (.object args) = .ok r)
    (hformat : requestedFormat args = .ok .json) (hok : r.isError = false) :
    ∃ tool : Tool, tool.name = name ∧ ∃ report,
      tool.answer settings tree args = .ok (.json, report) ∧
      r.structured = some report.value ∧ Json.parse r.text.toList = .ok report.value ∧
      Json.RendersInOrder (.object [
        ("operation", .string report.operation),
        ("result", report.result.document),
        ("details", .object (report.details.map fun entry => (entry.1, entry.2.document)))])
          r.text.toList := by
  by_cases hname : name ∈ Choice.names Tool
  · obtain ⟨tool, rfl⟩ := exists_name_of_mem hname
    rw [call_name, runValue_object] at hcall
    cases hcall
    obtain ⟨report, hanswer, hnests, hrun⟩ := exists_report_of_run hformat hok
    refine ⟨tool, rfl, report, hanswer, ?_⟩
    rw [hrun, ← Report.entriesDocument_eq_map]
    exact ⟨rfl, Report.parse_documentText hnests (by decide),
      Report.rendersInOrder_documentText hnests⟩
  · rw [call_of_notMem hname] at hcall
    cases hcall

def halfByteArguments : Arguments := [
  ("algorithm", .string "crc32"),
  ("input_list", .array [.string "00ff", .string "0\t"]),
  ("input_type", .string "hex"),
  ("response_format", .string "json")]

theorem call_document_text_halfByte :
    ∃ r, call .default .empty "calculator_batch_hash" (.object halfByteArguments) = .ok r ∧
      requestedFormat halfByteArguments = .ok .json ∧ r.isError = false ∧
      ∃ tool : Tool, tool.name = "calculator_batch_hash" ∧
        ∃ report, tool.answer .default .empty halfByteArguments = .ok (.json, report) ∧
        r.structured = some report.value ∧ Json.parse r.text.toList = .ok report.value ∧
        Json.RendersInOrder (.object [
          ("operation", .string report.operation),
          ("result", report.result.document),
          ("details", .object (report.details.map fun entry => (entry.1, entry.2.document)))])
            r.text.toList := by
  have hcall : ∃ r, call .default .empty "calculator_batch_hash"
    (.object halfByteArguments) = .ok r ∧
      r.isError = false := ⟨_, rfl, rfl⟩
  obtain ⟨r, hcall, hok⟩ := hcall
  exact ⟨r, hcall, rfl, hok, call_document_text hcall rfl hok⟩

end Tool

end Calculator
