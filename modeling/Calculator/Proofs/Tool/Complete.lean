import Calculator.Proofs.Report.Complete
import Calculator.Proofs.Request.Numbers
import Calculator.Proofs.Statistics
import Calculator.Proofs.Tool.Result
import Calculator.Proofs.Trigonometry

/-!
# Reports hold finite numbers only

From finite numbers every tool computes a finite result or fails, and the numbers that a report
repeats are those of the request. So nothing is left out of a report that is given as a document.
-/

namespace Calculator

open Request (Arguments)

variable {settings : Settings} {tree : FileTree} {args : Arguments} {name : String}
  {v : Json} {x : Float} {report : Report}

open Report (Details)
open Report.Field (isComplete_float isComplete_floats isComplete_list isComplete_map)

theorem ArithmeticRequest.isComplete_report {r : ArithmeticRequest} (ha : r.a.isFinite = true)
    (hb : r.b.isFinite = true) (h : r.report = .ok report) : report.IsComplete := by
  obtain ⟨result, happly, h⟩ := bind_eq_ok_iff.1 h
  obtain ⟨computed, -, hfinite⟩ := bind_eq_ok_iff.1 happly
  cases h
  refine ⟨isComplete_float (isFinite_of_finite hfinite), ?_⟩
  simp [isComplete_float ha, isComplete_float hb]

theorem AdvancedMathRequest.isComplete_extraDetails {r : AdvancedMathRequest}
    (h : ∀ e ∈ r.exponent, e.isFinite = true) : r.extraDetails.IsComplete := by
  unfold extraDetails
  split
  · apply Details.isComplete_of_map
    intro e he
    exact isComplete_float (h e (Option.mem_toList.1 he))
  · simp
  · simp

theorem AdvancedMathRequest.isComplete_report {r : AdvancedMathRequest}
    (hvalue : r.value.isFinite = true)
    (hexponent : ∀ e ∈ r.exponent, e.isFinite = true) (h : r.report = .ok report) :
      report.IsComplete := by
  obtain ⟨result, happly, h⟩ := bind_eq_ok_iff.1 h
  obtain ⟨computed, -, hfinite⟩ := bind_eq_ok_iff.1 happly
  cases h
  refine ⟨isComplete_float (isFinite_of_finite hfinite), ?_⟩
  simp [isComplete_float hvalue, isComplete_extraDetails hexponent]

theorem TrigonometryRequest.isComplete_report {r : TrigonometryRequest}
    (hangle : r.angle.isFinite = true) (h : r.report = .ok report) : report.IsComplete := by
  obtain ⟨result, hresult, h⟩ := bind_eq_ok_iff.1 h
  cases h
  refine ⟨isComplete_float (TrigOperation.isFinite_of_evaluate hangle hresult), ?_⟩
  simp [details, isComplete_float hangle]

theorem StatisticsRequest.isComplete_ifAny {key : String} {found : Option Float}
    (h : ∀ x ∈ found, x.isFinite = true) : (ifAny key found).IsComplete := by
  apply Details.isComplete_of_map
  intro x hx
  exact isComplete_float (h x (Option.mem_toList.1 hx))

theorem StatisticsRequest.isComplete_answerField {op : StatisticsOperation} {values : List Float}
    {answer : StatisticsOperation.Answer} (hvalues : ∀ x ∈ values, x.isFinite = true)
    (h : op.evaluate values = .ok answer) : (answerField answer).IsComplete := by
  cases op with
  | single s =>
    obtain ⟨x, hx, h⟩ := bind_eq_ok_iff.1 h
    cases h
    exact isComplete_float (Statistic.isFinite_of_evaluate hx)
  | summary =>
    obtain ⟨s, hs, h⟩ := bind_eq_ok_iff.1 h
    cases h
    have hfinite := Statistics.isFinite_of_summary hvalues hs
    apply isComplete_map
    simp [summaryDetails, isComplete_float, hfinite.mean, hfinite.median,
      hfinite.min, hfinite.max, hfinite.range,
      hfinite.sum, isComplete_ifAny hfinite.stdev, isComplete_ifAny hfinite.variance]

theorem StatisticsRequest.isComplete_report {r : StatisticsRequest}
    (hvalues : ∀ x ∈ r.values, x.isFinite = true)
    (h : r.report = .ok report) : report.IsComplete := by
  obtain ⟨answer, hanswer, h⟩ := bind_eq_ok_iff.1 h
  cases h
  have hmethod : Details.IsComplete
      (r.operation.method.toList.map fun method => ("method", Report.Field.string method)) := by
    apply Details.isComplete_of_map
    intro method _
    exact Report.Field.isComplete_string method
  refine ⟨isComplete_answerField hvalues hanswer, ?_⟩
  simp [details, isComplete_floats hvalues, hmethod]

theorem UnitFamily.isFinite_of_convert {family : UnitFamily} {source target : String}
    {c : Conversion Float} (hx : x.isFinite = true) (h : family.convert x source target = .ok c) :
      c.value.isFinite = true := by
  obtain ⟨fromUnit, -, h⟩ := bind_eq_ok_iff.1 h
  obtain ⟨toUnit, -, h⟩ := bind_eq_ok_iff.1 h
  simp only at h
  split at h
  · cases h
  split at h
  · cases h
    exact hx
  · obtain ⟨y, hy, h⟩ := bind_eq_ok_iff.1 h
    cases h
    exact isFinite_of_finite hy

theorem ConversionRequest.isComplete_report {r : ConversionRequest}
    (hvalue : r.value.isFinite = true) (h : r.report = .ok report) : report.IsComplete := by
  obtain ⟨conversion, hconversion, h⟩ := bind_eq_ok_iff.1 h
  cases h
  refine ⟨isComplete_float (UnitFamily.isFinite_of_convert hvalue hconversion), ?_⟩
  simp [isComplete_float hvalue]

theorem HashMethod.isComplete_details (m : HashMethod) : m.details.IsComplete := by
  simp [details]

theorem HashOutcome.isComplete_details (o : HashOutcome) : o.details.IsComplete := by
  unfold details
  split <;> simp

theorem HashRequest.isComplete_report {r : HashRequest} (h : r.report settings tree = .ok report) :
    report.IsComplete := by
  obtain ⟨o, -, h⟩ := bind_eq_ok_iff.1 h
  cases h
  refine ⟨Report.Field.isComplete_string o.digest, ?_⟩
  simp [HashMethod.isComplete_details, HashOutcome.isComplete_details]

theorem ComparisonRequest.isComplete_report {r : ComparisonRequest}
    (h : r.report settings tree = .ok report) :
    report.IsComplete := by
  obtain ⟨o, -, h⟩ := bind_eq_ok_iff.1 h
  cases h
  refine ⟨?_, ?_⟩
  · apply isComplete_map
    simp
  · simp [HashMethod.isComplete_details, HashOutcome.isComplete_details]

theorem BatchRequest.isComplete_resultEntry (item : BatchItem) : (resultEntry item).IsComplete := by
  apply isComplete_map
  rw [Details.isComplete_cons]
  refine ⟨Report.Field.isComplete_string item.input, ?_⟩
  split
  · next o _ =>
    rw [Details.isComplete_cons]
    refine ⟨Report.Field.isComplete_string o.digest, ?_⟩
    apply Details.isComplete_of_map
    rintro ⟨path, size⟩ _
    exact Report.Field.isComplete_size size
  · simp

theorem BatchRequest.isComplete_inputEntry (item : BatchItem) : (inputEntry item).IsComplete := by
  apply isComplete_map
  rw [Details.isComplete_cons]
  refine ⟨Report.Field.isComplete_string item.input, ?_⟩
  split
  · exact HashOutcome.isComplete_details _
  · simp

theorem BatchRequest.isComplete_report {r : BatchRequest}
    (h : r.report settings tree = .ok report) :
    report.IsComplete := by
  obtain ⟨_, -, h⟩ := bind_eq_ok_iff.1 h
  cases h
  have hresults : (Report.Field.list ((r.items settings tree).map resultEntry)).IsComplete := by
    apply isComplete_list
    rw [List.forall_mem_map]
    intro item _
    exact isComplete_resultEntry item
  have hinputs : (Report.Field.list ((r.items settings tree).map inputEntry)).IsComplete := by
    apply isComplete_list
    rw [List.forall_mem_map]
    intro item _
    exact isComplete_inputEntry item
  refine ⟨hresults, ?_⟩
  simp [HashMethod.isComplete_details, hinputs]

namespace Tool

theorem Answers.isComplete {tool : Tool} {format : ResponseFormat}
    (hargs : (Json.object args).FiniteFloats)
    (h : Answers settings tree args tool format report) : report.IsComplete := by
  cases h with
  | arithmetic hread hreport =>
    obtain ⟨ha, hb, -⟩ := read_arithmetic hread
    exact ArithmeticRequest.isComplete_report (isFinite_of_required hargs ha)
      (isFinite_of_required hargs hb) hreport
  | advancedMath hread hreport =>
    obtain ⟨hvalue, hexponent, -⟩ := read_advancedMath hread
    exact AdvancedMathRequest.isComplete_report (isFinite_of_required hargs hvalue)
      (isFinite_of_optional hargs hexponent) hreport
  | trigonometry hread hreport =>
    exact TrigonometryRequest.isComplete_report
      (isFinite_of_required hargs (read_trigonometry hread).1) hreport
  | statistics hread hreport =>
    exact StatisticsRequest.isComplete_report
      (isFinite_of_requiredList hargs (read_statistics hread).1) hreport
  | conversion hread hreport =>
    exact ConversionRequest.isComplete_report
      (isFinite_of_required hargs (read_conversion hread).1) hreport
  | hash hread hreport => exact HashRequest.isComplete_report hreport
  | comparison hread hreport => exact ComparisonRequest.isComplete_report hreport
  | batchHash hread hreport => exact BatchRequest.isComplete_report hreport

theorem isComplete_of_run {tool : Tool} (hargs : (Json.object args).FiniteFloats)
    (hdocument : (tool.run settings tree args).structured = some v) : v.IsComplete := by
  rw [run_eq] at hdocument
  cases hanswer : tool.answer settings tree args with
  | error failure =>
    rw [hanswer] at hdocument
    cases hdocument
  | ok answer =>
    obtain ⟨format, report⟩ := answer
    rw [hanswer] at hdocument
    cases format with
    | markdown => cases hdocument
    | json =>
      cases hdocument
      exact ((answers_of_answer hanswer).isComplete hargs).value

/-- A document that a tool answers with has no null in it, and all its numbers are finite. -/
theorem call_document_isComplete {r : ToolResult} (hargs : (Json.object args).FiniteFloats)
    (hcall : call settings tree name (.object args) = .ok r) (hdocument : r.structured = some v) :
    ¬Json.PartOf .null v ∧ v.FiniteFloats := by
  by_cases hname : name ∈ Choice.names Tool
  · obtain ⟨tool, rfl⟩ := exists_name_of_mem hname
    rw [call_name, runValue_object] at hcall
    cases hcall
    have hcomplete := isComplete_of_run hargs hdocument
    exact ⟨hcomplete.not_null, hcomplete.finite⟩
  · rw [call_of_notMem hname] at hcall
    cases hcall

def sineArguments : Arguments := [
  ("angle", .float 22.5),
  ("operation", .string "sin"),
  ("response_format", .string "json")]

theorem call_document_isComplete_sine :
    (Json.object sineArguments).FiniteFloats ∧
    ∃ r v, call .default .empty "calculator_trigonometric" (.object sineArguments) = .ok r ∧
      r.structured = some v ∧ ¬Json.PartOf .null v ∧ v.FiniteFloats := by
  have hangle : (22.5 : Float).isFinite = true := by decide +kernel
  have hargs : (Json.object sineArguments).FiniteFloats := by
    apply Json.IsComplete.finite
    apply Json.isComplete_object
    simp [sineArguments, Json.isComplete_string, Json.isComplete_float hangle]
  have hcall : ∃ r v, call .default .empty "calculator_trigonometric"
    (.object sineArguments) = .ok r ∧
      r.structured = some v := ⟨_, _, call_object .default .empty .trigonometry sineArguments, rfl⟩
  obtain ⟨r, v, hcall, hdocument⟩ := hcall
  exact ⟨hargs, r, v, hcall, hdocument, call_document_isComplete hargs hcall hdocument⟩

end Tool

end Calculator
