import Calculator.Proofs.Outcome
import Calculator.Tool.Call

/-!
# What a tool answers

A tool that answers has read a request from its arguments and has computed the report of that
request. The form of the answer is the one that the arguments ask for, whichever tool it is.
-/

namespace Calculator.Tool

open Json (Shape)
open Request

variable {settings : Settings} {tree : FileTree} {args : Arguments} {tool : Tool}
  {format : ResponseFormat} {report : Report}

/-- The request behind an answer: one that a tool read from its arguments, with its report. -/
inductive Answers (settings : Settings) (tree : FileTree) (args : Arguments) :
    Tool → ResponseFormat → Report → Prop
  | arithmetic {r : ArithmeticRequest} {report : Report}
      (hread : ArithmeticRequest.ofArguments args = .ok r)
    (hreport : r.report = .ok report) : Answers settings tree args .arithmetic r.format report
  | advancedMath {r : AdvancedMathRequest} {report : Report}
      (hread : AdvancedMathRequest.ofArguments args = .ok r)
    (hreport : r.report = .ok report) : Answers settings tree args .advancedMath r.format report
  | trigonometry {r : TrigonometryRequest} {report : Report}
      (hread : TrigonometryRequest.ofArguments args = .ok r)
    (hreport : r.report = .ok report) : Answers settings tree args .trigonometry r.format report
  | statistics {r : StatisticsRequest} {report : Report}
      (hread : StatisticsRequest.ofArguments args = .ok r)
    (hreport : r.report = .ok report) : Answers settings tree args .statistics r.format report
  | conversion {r : ConversionRequest} {report : Report}
      (hread : ConversionRequest.ofArguments args = .ok r)
    (hreport : r.report = .ok report) : Answers settings tree args .conversion r.format report
  | hash {r : HashRequest} {report : Report} (hread : HashRequest.ofArguments args = .ok r)
    (hreport : r.report settings tree = .ok report) :
      Answers settings tree args .hash r.format report
  | comparison {r : ComparisonRequest} {report : Report}
      (hread : ComparisonRequest.ofArguments args = .ok r)
    (hreport : r.report settings tree = .ok report) :
      Answers settings tree args .comparison r.hash.format report
  | batchHash {r : BatchRequest} {report : Report} (hread : BatchRequest.ofArguments args = .ok r)
    (hreport : r.report settings tree = .ok report) :
      Answers settings tree args .batchHash r.format report

theorem bind_report_eq_ok {α : Type} {read : Outcome α} {compute : α → Outcome Report}
    {formatOf : α → ResponseFormat}
    (h : (do let r ← read; return (formatOf r, ← compute r)) = .ok (format, report)) :
    ∃ r, read = .ok r ∧ compute r = .ok report ∧ formatOf r = format := by
  obtain ⟨r, hread, h⟩ := bind_eq_ok_iff.1 h
  obtain ⟨report', hreport, h⟩ := bind_eq_ok_iff.1 h
  cases h
  exact ⟨r, hread, hreport, rfl⟩

theorem answers_of_answer (h : tool.answer settings tree args = .ok (format, report)) :
    Answers settings tree args tool format report := by
  cases tool with
  | arithmetic =>
    obtain ⟨r, hread, hreport, rfl⟩ := bind_report_eq_ok h
    exact .arithmetic hread hreport
  | advancedMath =>
    obtain ⟨r, hread, hreport, rfl⟩ := bind_report_eq_ok h
    exact .advancedMath hread hreport
  | trigonometry =>
    obtain ⟨r, hread, hreport, rfl⟩ := bind_report_eq_ok h
    exact .trigonometry hread hreport
  | statistics =>
    obtain ⟨r, hread, hreport, rfl⟩ := bind_report_eq_ok h
    exact .statistics hread hreport
  | conversion =>
    obtain ⟨r, hread, hreport, rfl⟩ := bind_report_eq_ok h
    exact .conversion hread hreport
  | hash =>
    obtain ⟨r, hread, hreport, rfl⟩ := bind_report_eq_ok h
    exact .hash hread hreport
  | comparison =>
    obtain ⟨r, hread, hreport, rfl⟩ := bind_report_eq_ok h
    exact .comparison hread hreport
  | batchHash =>
    obtain ⟨r, hread, hreport, rfl⟩ := bind_report_eq_ok h
    exact .batchHash hread hreport

def requestedFormat (args : Arguments) : Outcome ResponseFormat :=
  orDefault .markdown Shape.choice args "response_format"

theorem read_arithmetic {r : ArithmeticRequest} (h : ArithmeticRequest.ofArguments args = .ok r) :
    required Shape.float args "a" = .ok r.a ∧ required Shape.float args "b" = .ok r.b ∧
      requestedFormat args = .ok r.format := by
  obtain ⟨operation, -, h⟩ := bind_eq_ok_iff.1 h
  obtain ⟨a, ha, h⟩ := bind_eq_ok_iff.1 h
  obtain ⟨b, hb, h⟩ := bind_eq_ok_iff.1 h
  obtain ⟨format, hformat, h⟩ := bind_eq_ok_iff.1 h
  cases h
  exact ⟨ha, hb, hformat⟩

theorem read_advancedMath {r : AdvancedMathRequest}
    (h : AdvancedMathRequest.ofArguments args = .ok r) :
    required Shape.float args "value" = .ok r.value ∧ optional Shape.float args "exponent" =
      .ok r.exponent ∧
      requestedFormat args = .ok r.format := by
  obtain ⟨operation, -, h⟩ := bind_eq_ok_iff.1 h
  obtain ⟨value, hvalue, h⟩ := bind_eq_ok_iff.1 h
  obtain ⟨exponent, hexponent, h⟩ := bind_eq_ok_iff.1 h
  obtain ⟨decimals, -, h⟩ := bind_eq_ok_iff.1 h
  obtain ⟨format, hformat, h⟩ := bind_eq_ok_iff.1 h
  obtain ⟨-, -, h⟩ := bind_eq_ok_iff.1 h
  cases h
  exact ⟨hvalue, hexponent, hformat⟩

theorem read_trigonometry {r : TrigonometryRequest}
    (h : TrigonometryRequest.ofArguments args = .ok r) :
    required Shape.float args "angle" = .ok r.angle ∧ requestedFormat args = .ok r.format := by
  obtain ⟨operation, -, h⟩ := bind_eq_ok_iff.1 h
  obtain ⟨angle, hangle, h⟩ := bind_eq_ok_iff.1 h
  obtain ⟨useRadians, -, h⟩ := bind_eq_ok_iff.1 h
  obtain ⟨format, hformat, h⟩ := bind_eq_ok_iff.1 h
  cases h
  exact ⟨hangle, hformat⟩

theorem read_statistics {r : StatisticsRequest} (h : StatisticsRequest.ofArguments args = .ok r) :
    required (Shape.list Shape.float) args "values" = .ok r.values ∧
    requestedFormat args = .ok r.format := by
  obtain ⟨operation, -, h⟩ := bind_eq_ok_iff.1 h
  obtain ⟨values, hvalues, h⟩ := bind_eq_ok_iff.1 h
  obtain ⟨format, hformat, h⟩ := bind_eq_ok_iff.1 h
  cases h
  exact ⟨hvalues, hformat⟩

theorem read_conversion {r : ConversionRequest} (h : ConversionRequest.ofArguments args = .ok r) :
    required Shape.float args "value" = .ok r.value ∧ requestedFormat args = .ok r.format := by
  obtain ⟨family, -, h⟩ := bind_eq_ok_iff.1 h
  obtain ⟨value, hvalue, h⟩ := bind_eq_ok_iff.1 h
  obtain ⟨fromUnit, -, h⟩ := bind_eq_ok_iff.1 h
  obtain ⟨toUnit, -, h⟩ := bind_eq_ok_iff.1 h
  obtain ⟨format, hformat, h⟩ := bind_eq_ok_iff.1 h
  cases h
  exact ⟨hvalue, hformat⟩

theorem read_hash {r : HashRequest} (h : HashRequest.ofArguments args = .ok r) :
    requestedFormat args = .ok r.format := by
  obtain ⟨algorithm, -, h⟩ := bind_eq_ok_iff.1 h
  obtain ⟨inputType, -, h⟩ := bind_eq_ok_iff.1 h
  obtain ⟨input, -, h⟩ := bind_eq_ok_iff.1 h
  obtain ⟨normalization, -, h⟩ := bind_eq_ok_iff.1 h
  obtain ⟨format, hformat, h⟩ := bind_eq_ok_iff.1 h
  cases h
  exact hformat

theorem read_comparison {r : ComparisonRequest} (h : ComparisonRequest.ofArguments args = .ok r) :
    requestedFormat args = .ok r.hash.format := by
  obtain ⟨given, -, h⟩ := bind_eq_ok_iff.1 h
  obtain ⟨algorithm, -, h⟩ := bind_eq_ok_iff.1 h
  obtain ⟨inputType, -, h⟩ := bind_eq_ok_iff.1 h
  obtain ⟨input, -, h⟩ := bind_eq_ok_iff.1 h
  obtain ⟨expected, -, h⟩ := bind_eq_ok_iff.1 h
  obtain ⟨normalization, -, h⟩ := bind_eq_ok_iff.1 h
  obtain ⟨format, hformat, h⟩ := bind_eq_ok_iff.1 h
  cases h
  exact hformat

theorem read_batchHash {r : BatchRequest} (h : BatchRequest.ofArguments args = .ok r) :
    requestedFormat args = .ok r.format := by
  obtain ⟨algorithm, -, h⟩ := bind_eq_ok_iff.1 h
  obtain ⟨inputType, -, h⟩ := bind_eq_ok_iff.1 h
  obtain ⟨inputs, -, h⟩ := bind_eq_ok_iff.1 h
  obtain ⟨normalization, -, h⟩ := bind_eq_ok_iff.1 h
  obtain ⟨format, hformat, h⟩ := bind_eq_ok_iff.1 h
  cases h
  exact hformat

theorem Answers.requestedFormat (h : Answers settings tree args tool format report) :
    requestedFormat args = .ok format := by
  cases h with
  | arithmetic hread => exact (read_arithmetic hread).2.2
  | advancedMath hread => exact (read_advancedMath hread).2.2
  | trigonometry hread => exact (read_trigonometry hread).2
  | statistics hread => exact (read_statistics hread).2
  | conversion hread => exact (read_conversion hread).2
  | hash hread => exact read_hash hread
  | comparison hread => exact read_comparison hread
  | batchHash hread => exact read_batchHash hread

end Calculator.Tool
