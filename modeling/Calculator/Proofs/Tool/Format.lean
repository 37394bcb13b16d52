import Calculator.Proofs.Report.Document
import Calculator.Proofs.Report.Markdown
import Calculator.Proofs.Request.Comparison
import Calculator.Proofs.Tool.Complete

/-!
# The form of an answer is only a form

A request reads the form of its answer without any other field, and computes its report without the
form. So arguments that differ in the form alone fail alike or have the same report, and the first
and the last line of the report for reading say what its document says.
-/

namespace Calculator

open Json (Shape)
open Request
open Text (IsLine lines)

variable {settings : Settings} {tree : FileTree} {args args' : Arguments}
  {tool : Tool} {report : Report}

structure Request.DifferInFormat (args args' : Arguments) : Prop where
  markdown : Tool.requestedFormat args = .ok .markdown
  json : Tool.requestedFormat args' = .ok .json
  others : ∀ field, field ≠ "response_format" → args'.get? field = args.get? field

theorem Tool.requestedFormat_of_absent (h : args.get? "response_format" = none) :
    requestedFormat args = .ok .markdown := by
  simp only [requestedFormat, orDefault, Request.optional, h]
  rfl

theorem Tool.requestedFormat_of_name (format : ResponseFormat)
    (h : args.get? "response_format" = some (.string format.name)) :
      requestedFormat args = .ok format := by
  simp only [requestedFormat, orDefault, Request.optional, h]
  cases format <;> rfl

theorem Request.Arguments.get?_append_of_ne (args : Arguments) {name field : String}
    (h : field ≠ name) (v : Json) :
    Arguments.get? (args ++ [(name, v)]) field = args.get? field := by
  have hlast : [(name, v)].find? (·.1 == field) = none := by simp [h.symm]
  rw [Arguments.get?, List.find?_append, hlast, Option.or_none]
  rfl

namespace Request.DifferInFormat

variable {α : Type} {shape : Shape α} {default : α} {field : String}

theorem required (h : DifferInFormat args args') (hfield : field ≠ "response_format") :
    required shape args' field = required shape args field :=
  required_congr shape (h.others field hfield)

theorem optional (h : DifferInFormat args args') (hfield : field ≠ "response_format") :
    optional shape args' field = optional shape args field :=
  optional_congr shape (h.others field hfield)

theorem orDefault (h : DifferInFormat args args') (hfield : field ≠ "response_format") :
    orDefault default shape args' field = orDefault default shape args field :=
  orDefault_congr default shape (h.others field hfield)

theorem read_markdown (h : DifferInFormat args args') :
    Request.orDefault ResponseFormat.markdown Shape.choice args "response_format" =
      pure .markdown :=
  h.markdown

theorem read_json (h : DifferInFormat args args') :
    Request.orDefault ResponseFormat.markdown Shape.choice args' "response_format" = pure .json :=
  h.json

end Request.DifferInFormat

theorem ArithmeticRequest.ofArguments_json (h : DifferInFormat args args') :
    ofArguments args' = (fun r => { r with format := .json }) <$> ofArguments args := by
  simp [ofArguments, h.required, h.read_markdown, h.read_json]

theorem AdvancedMathRequest.ofArguments_json (h : DifferInFormat args args') :
    ofArguments args' = (fun r => { r with format := .json }) <$> ofArguments args := by
  simp [ofArguments, check, h.required, h.optional, h.read_markdown, h.read_json]

theorem TrigonometryRequest.ofArguments_json (h : DifferInFormat args args') :
    ofArguments args' = (fun r => { r with format := .json }) <$> ofArguments args := by
  simp [ofArguments, h.required, h.orDefault, h.read_markdown, h.read_json]

theorem StatisticsRequest.ofArguments_json (h : DifferInFormat args args') :
    ofArguments args' = (fun r => { r with format := .json }) <$> ofArguments args := by
  simp [ofArguments, h.required, h.read_markdown, h.read_json]

theorem ConversionRequest.ofArguments_json (h : DifferInFormat args args') :
    ofArguments args' = (fun r => { r with format := .json }) <$> ofArguments args := by
  simp [ofArguments, h.required, h.read_markdown, h.read_json]

theorem HashRequest.ofArguments_json (h : DifferInFormat args args') :
    ofArguments args' = (fun r => { r with format := .json }) <$> ofArguments args := by
  simp [ofArguments, h.required, h.orDefault, h.read_markdown, h.read_json]

theorem ComparisonRequest.ofArguments_json (h : DifferInFormat args args') :
    ofArguments args' = (fun r => { r with hash := { r.hash with format := .json } }) <$>
      ofArguments args := by
  simp [ofArguments, h.required, h.orDefault, h.read_markdown, h.read_json]

theorem BatchRequest.ofArguments_json (h : DifferInFormat args args') :
    ofArguments args' = (fun r => { r with format := .json }) <$> ofArguments args := by
  simp [ofArguments, h.required, h.orDefault, h.read_markdown, h.read_json]

namespace Tool

theorem bind_report_map {α : Type} {read read' : Outcome α} {change : α → α}
    {compute : α → Outcome Report}
    {formatOf : α → ResponseFormat} {format : ResponseFormat} (hread : read' = change <$> read)
    (hformat : ∀ r, formatOf (change r) = format) (hcompute : ∀ r, compute (change r) = compute r) :
    (do let r ← read'; return (formatOf r, ← compute r)) =
      (fun a => (format, a.2)) <$> (do let r ← read; return (formatOf r, ← compute r)) := by
  simp only [hread, bind_map_left, map_bind, map_pure, hformat, hcompute]

theorem answer_json (h : DifferInFormat args args') (settings : Settings)
    (tree : FileTree) (tool : Tool) :
    tool.answer settings tree args' = (fun a => (.json, a.2)) <$>
      tool.answer settings tree args := by
  cases tool with
  | arithmetic =>
    exact bind_report_map (ArithmeticRequest.ofArguments_json h) (fun _ => rfl) fun _ => rfl
  | advancedMath =>
    exact bind_report_map (AdvancedMathRequest.ofArguments_json h) (fun _ => rfl) fun _ => rfl
  | trigonometry =>
    exact bind_report_map (TrigonometryRequest.ofArguments_json h) (fun _ => rfl) fun _ => rfl
  | statistics =>
    exact bind_report_map (StatisticsRequest.ofArguments_json h) (fun _ => rfl) fun _ => rfl
  | conversion =>
    exact bind_report_map (ConversionRequest.ofArguments_json h) (fun _ => rfl) fun _ => rfl
  | hash => exact bind_report_map (HashRequest.ofArguments_json h) (fun _ => rfl) fun _ => rfl
  | comparison =>
    exact bind_report_map (ComparisonRequest.ofArguments_json h) (fun _ => rfl) fun _ => rfl
  | batchHash => exact bind_report_map (BatchRequest.ofArguments_json h) (fun _ => rfl) fun _ => rfl

end Tool

theorem isLine_label {α : Type} [Choice α] {title : String} (htitle : IsLine title)
    (hnames : ∀ name ∈ Choice.names α, IsLine name) (a : α) : IsLine (title ++ Choice.name a) :=
  htitle.append (hnames (Choice.name a) (List.mem_map_of_mem (Choice.mem_all a)))

namespace Report

/-- The fields that reports have as their results: numbers, digests, and lists and mappings of more
than one thing. -/
inductive Field.IsResult : Field → Prop
  | number (x : Float) : IsResult (.float x)
  | digest {s : String} (h : IsLine s) : IsResult (.string s)
  | map (entries : List (String × Field)) : IsResult (.map entries)
  | list (items : List Field) : IsResult (.list items)

end Report

/-- What a tool reports: an operation in one line and a result, with a verdict if digests are
compared. -/
inductive Tool.Presents : Tool → Report → Prop
  | plain {tool : Tool} {report : Report} (htool : tool ≠ .comparison)
      (hoperation : IsLine report.operation)
    (hverdict : report.verdict = none) (hresult : report.result.IsResult) : Presents tool report
  | verdict {report : Report} {isMatch : Bool} {digest expected : String}
      (hoperation : IsLine report.operation)
    (hverdict : report.verdict = some (ComparisonRequest.verdict isMatch))
    (hresult : report.result = .map [
      ("match", .bool isMatch),
      ("calculated_hash", .string digest),
      ("expected_hash", .string expected)]) : Presents .comparison report

theorem ArithmeticRequest.presents_report {r : ArithmeticRequest} (h : r.report = .ok report) :
    Tool.arithmetic.Presents report := by
  obtain ⟨result, -, h⟩ := bind_eq_ok_iff.1 h
  cases h
  exact .plain (by decide) (isLine_label (by decide) (by decide) r.operation) rfl (.number result)

theorem AdvancedMathRequest.presents_report {r : AdvancedMathRequest} (h : r.report = .ok report) :
    Tool.advancedMath.Presents report := by
  obtain ⟨result, -, h⟩ := bind_eq_ok_iff.1 h
  cases h
  exact .plain (by decide) (isLine_label (by decide) (by decide) r.operation) rfl (.number result)

theorem TrigonometryRequest.presents_report {r : TrigonometryRequest} (h : r.report = .ok report) :
    Tool.trigonometry.Presents report := by
  obtain ⟨result, -, h⟩ := bind_eq_ok_iff.1 h
  cases h
  exact .plain (by decide) (isLine_label (by decide) (by decide) r.operation) rfl (.number result)

theorem StatisticsRequest.isResult_answerField (answer : StatisticsOperation.Answer) :
    (answerField answer).IsResult := by
  cases answer with
  | value x => exact .number x
  | summary s => exact .map (summaryDetails s)

theorem StatisticsRequest.presents_report {r : StatisticsRequest} (h : r.report = .ok report) :
    Tool.statistics.Presents report := by
  obtain ⟨answer, -, h⟩ := bind_eq_ok_iff.1 h
  cases h
  exact .plain (by decide) (isLine_label (by decide) (by decide) r.operation) rfl
    (isResult_answerField answer)

theorem ConversionRequest.presents_report {r : ConversionRequest} (h : r.report = .ok report) :
    Tool.conversion.Presents report := by
  obtain ⟨conversion, -, h⟩ := bind_eq_ok_iff.1 h
  cases h
  exact .plain (by decide) (isLine_label (by decide) (by decide) r.family)
    rfl (.number conversion.value)

theorem isLine_hexDigest (a : Algorithm) (message : Bytes) : IsLine (a.hexDigest message) := by
  intro hnewline
  have hblank := (isHexText_hexDigest a message).noBlank '\n' hnewline
  exact absurd hblank (by simp [Text.isBlank_newline])

theorem HashRequest.presents_report {r : HashRequest} (h : r.report settings tree = .ok report) :
    Tool.hash.Presents report := by
  obtain ⟨o, houtcome, h⟩ := bind_eq_ok_iff.1 h
  cases h
  obtain ⟨message, hdigest⟩ := ComparisonRequest.exists_hexDigest houtcome
  have hline : IsLine o.digest := hdigest ▸ isLine_hexDigest r.method.algorithm message
  exact .plain (by decide) (isLine_label (by decide) (by decide) r.method.algorithm)
    rfl (.digest hline)

theorem ComparisonRequest.presents_report {r : ComparisonRequest}
    (h : r.report settings tree = .ok report) :
    Tool.comparison.Presents report := by
  obtain ⟨o, -, h⟩ := bind_eq_ok_iff.1 h
  cases h
  exact .verdict (isLine_label (by decide) (by decide) r.hash.method.algorithm) rfl rfl

theorem BatchRequest.presents_report {r : BatchRequest} (h : r.report settings tree = .ok report) :
    Tool.batchHash.Presents report := by
  obtain ⟨_, -, h⟩ := bind_eq_ok_iff.1 h
  cases h
  exact .plain (by decide) (isLine_label (by decide) (by decide) r.method.algorithm) rfl (.list _)

theorem Tool.Answers.presents {format : ResponseFormat}
    (h : Answers settings tree args tool format report) :
    tool.Presents report := by
  cases h with
  | arithmetic _ hreport => exact ArithmeticRequest.presents_report hreport
  | advancedMath _ hreport => exact AdvancedMathRequest.presents_report hreport
  | trigonometry _ hreport => exact TrigonometryRequest.presents_report hreport
  | statistics _ hreport => exact StatisticsRequest.presents_report hreport
  | conversion _ hreport => exact ConversionRequest.presents_report hreport
  | hash _ hreport => exact HashRequest.presents_report hreport
  | comparison _ hreport => exact ComparisonRequest.presents_report hreport
  | batchHash _ hreport => exact BatchRequest.presents_report hreport

namespace Tool

inductive Heads (document : Json) : Tool → String → Prop
  | operation {tool : Tool} {label : String} (htool : tool ≠ .comparison)
    (hlabel : document.get? "operation" = some (.string label)) : Heads document tool s!"# {label}"
  | verdict {label : String} {isMatch : Bool}
      (hlabel : document.get? "operation" = some (.string label))
    (hmatch : (document.get? "result").bind (·.get? "match") = some (.bool isMatch)) :
    Heads document .comparison s!"# {label} {ComparisonRequest.verdict isMatch}"

inductive Ends : Json → String → Prop
  | string (s : String) : Ends (.string s) s!"## Result: **{s}**"
  | float {x : Float} {digits : String} (h : Json.parse digits.toList = .ok (.float x)) :
    Ends (.float x) s!"## Result: **{digits}**"

/-- A report for reading whose first and last line say what a document says. -/
structure ReadsAs (tool : Tool) (text : String) (document : Json) : Prop where
  first : ∃ line, (lines text).head? = some line ∧ Heads document tool line
  last : ∀ v, document.get? "result" = some v → v.depth = 0 →
    ∃ line, (lines text).getLast? = some line ∧ Ends v line

theorem get?_match {isMatch : Bool} {digest expected : String} (hresult : report.result = .map [
      ("match", .bool isMatch),
      ("calculated_hash", .string digest),
      ("expected_hash", .string expected)]) :
    (report.value.get? "result").bind (·.get? "match") = some (.bool isMatch) := by
  rw [Report.get?_result, hresult, Option.bind_some]
  apply Json.get?_ofMembers
  · simp [Report.entriesDocument, Json.sortedMembers]
  · simp [Report.entriesDocument, Json.sortedMembers, Report.Field.bool,
      Report.Field.document, Json.sorted]

theorem Presents.isLine_heading (h : tool.Presents report) : IsLine report.heading := by
  cases h with
  | plain _ hoperation hverdict =>
    rw [Report.heading, hverdict]
    exact IsLine.append (by decide) hoperation
  | @verdict _ isMatch digest expected hoperation hverdict =>
    have hmark : IsLine (ComparisonRequest.verdict isMatch) := by cases isMatch <;> decide
    rw [Report.heading, hverdict]
    exact ((IsLine.append (by decide) hoperation).append (by decide)).append hmark

theorem Presents.first (h : tool.Presents report) :
    ∃ line, (lines report.markdown).head? = some line ∧ Heads report.value tool line := by
  have hlabel := report.get?_operation
  refine ⟨report.heading, Report.head?_lines_markdown h.isLine_heading, ?_⟩
  cases h with
  | plain htool _ hverdict =>
    have hheading : report.heading = s!"# {report.operation}" := by rw [Report.heading, hverdict]
    exact hheading ▸ .operation htool hlabel
  | @verdict _ isMatch digest expected _ hverdict hresult =>
    have hheading :
        report.heading = s!"# {report.operation} {ComparisonRequest.verdict isMatch}" := by
      rw [Report.heading, hverdict]
    exact hheading ▸ .verdict hlabel (get?_match hresult)

theorem Presents.isResult (h : tool.Presents report) : report.result.IsResult := by
  cases h with
  | plain _ _ _ hresult => exact hresult
  | verdict _ _ hresult => exact hresult ▸ .map _

end Tool

theorem Report.Field.IsResult.last {v : Json} (h : report.result.IsResult)
    (hcomplete : report.result.IsComplete)
    (hv : report.value.get? "result" = some v) (hdepth : v.depth = 0) :
    ∃ line, (lines report.markdown).getLast? = some line ∧ Tool.Ends v line := by
  rw [get?_result] at hv
  obtain rfl := Option.some.inj hv
  -- A number that is not finite would be null in the document, and completeness excludes it.
  generalize hfield : report.result = field at h hcomplete hdepth ⊢
  cases h with
  | number x =>
    have hx := Field.isFinite_of_isComplete_float hcomplete
    rw [Field.float_of_isFinite hx] at hfield ⊢
    exact ⟨_, getLast?_lines_markdown hfield (isLine_floatText hx), .float (parse_floatText hx)⟩
  | @digest s hs => exact ⟨_, getLast?_lines_markdown hfield hs, .string s⟩
  | map entries =>
    exact absurd hdepth (by simp [Field.document, Json.sorted, Json.ofMembers, Json.depth])
  | list items => exact absurd hdepth (by simp [Field.document, Json.sorted, Json.depth])

namespace Tool

theorem Presents.readsAs (h : tool.Presents report) (hcomplete : report.IsComplete) :
    tool.ReadsAs report.markdown report.value :=
  ⟨h.first, fun _ hv hdepth => h.isResult.last hcomplete.result hv hdepth⟩

/-- Calls that differ in the form alone fail alike, or the one answers with a report for reading
whose first and last line say what the document says that the other answers with. -/
theorem call_formats_agree (h : DifferInFormat args args') (hargs : (Json.object args).FiniteFloats)
    (settings : Settings) (tree : FileTree) (tool : Tool) :
    ∃ markdown json, call settings tree tool.name (.object args) = .ok markdown ∧
      call settings tree tool.name (.object args') = .ok json ∧
      markdown.isError = json.isError ∧ (markdown.isError = true → markdown = json) ∧
      (markdown.isError = false →
        ∃ document, json.structured = some document ∧ tool.ReadsAs markdown.text document) := by
  refine ⟨_, _, call_object settings tree tool args, call_object settings tree tool args', ?_⟩
  rw [answer_json h]
  cases hanswer : tool.answer settings tree args with
  | error failure => exact ⟨rfl, fun _ => rfl, fun hok => (Bool.false_ne_true hok.symm).elim⟩
  | ok answer =>
    obtain ⟨format, report⟩ := answer
    have hanswers := answers_of_answer hanswer
    obtain rfl : ResponseFormat.markdown = format :=
      Except.ok.inj (h.markdown.symm.trans hanswers.requestedFormat)
    have hreads := hanswers.presents.readsAs (hanswers.isComplete hargs)
    exact ⟨rfl, fun herror => (Bool.false_ne_true herror).elim,
      fun _ => ⟨report.value, rfl, hreads⟩⟩

def thirdArguments : Arguments := [
  ("a", .whole (.ofNat 1)),
  ("b", .whole (.ofNat 3)),
  ("operation", .string "divide")]

theorem call_formats_agree_third :
    DifferInFormat thirdArguments (thirdArguments ++ [("response_format", .string "json")]) ∧
    (Json.object thirdArguments).FiniteFloats ∧
    ∃ markdown json, call .default .empty Tool.arithmetic.name (.object thirdArguments) =
      .ok markdown ∧
      call .default .empty Tool.arithmetic.name
        (.object (thirdArguments ++ [("response_format", .string "json")])) = .ok json ∧
      markdown.isError = json.isError ∧ markdown.isError = false ∧
      ∃ document, json.structured = some document ∧
      Tool.arithmetic.ReadsAs markdown.text document := by
  have hformats :
      DifferInFormat thirdArguments (thirdArguments ++ [("response_format", .string "json")]) :=
    ⟨requestedFormat_of_absent rfl, requestedFormat_of_name .json rfl, fun _ hfield =>
      thirdArguments.get?_append_of_ne hfield _⟩
  have hargs : (Json.object thirdArguments).FiniteFloats := by
    apply Json.IsComplete.finite
    apply Json.isComplete_object
    simp [thirdArguments, Json.isComplete_string, Json.isComplete_whole]
  have hanswered : ∃ r, call .default .empty Tool.arithmetic.name (.object thirdArguments) = .ok r ∧
      r.isError = false := ⟨_, call_object .default .empty .arithmetic thirdArguments, rfl⟩
  obtain ⟨markdown, hcall, hok⟩ := hanswered
  obtain ⟨markdown', json, hmarkdown, hjson, hsame, -, hreads⟩ :=
    call_formats_agree hformats hargs .default .empty .arithmetic
  obtain rfl := Except.ok.inj (hcall.symm.trans hmarkdown)
  exact ⟨hformats, hargs, markdown, json, hcall, hjson, hsame, hok, hreads hok⟩

end Tool

end Calculator
