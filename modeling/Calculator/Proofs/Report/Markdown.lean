import Calculator.Proofs.Json.Layout
import Calculator.Proofs.Text.Lines
import Calculator.Report.Markdown

/-!
# Reports for reading, line by line

A report for reading begins with its heading and ends with its result. A number that is the result
is given by its shortest digits and not as among the details, so it is read back as that number.
-/

namespace Calculator

open Text (IsLine lines)

variable {x : Float}

theorem Json.Renders.isSpace_of_mem_float {t : List Char} {c : Char}
    (h : Renders (.float x) t) (hc : c ∈ t) :
    isSpace c = false := by
  cases h with
  | number => exact Numeral.isSpace_of_mem_chars hc

theorem renders_floatText (hx : x.isFinite = true) :
    Json.Renders (.float x) (floatText .plain x).toList := by
  rw [floatText, String.toList_ofList]
  exact Json.renders_floatChars ⟨rfl, .inl rfl⟩ hx

theorem isLine_floatText (hx : x.isFinite = true) : IsLine (floatText .plain x) := by
  intro hnewline
  have hspace : Json.isSpace '\n' = false := (renders_floatText hx).isSpace_of_mem_float hnewline
  exact absurd hspace (by decide)

theorem parse_floatText (hx : x.isFinite = true) :
    Json.parse (floatText .plain x).toList = .ok (.float x) :=
  Json.parse_of_rendersInOrder (.leaf rfl (renders_floatText hx)) (Nat.zero_le _)

namespace Report

variable {report : Report} {v : Json}

theorem lines_markdown (report : Report) :
    lines report.markdown = report.markdownLines.flatMap lines :=
  Text.lines_intercalate report.heading _

theorem head?_lines_markdown (h : IsLine report.heading) :
    (lines report.markdown).head? = some report.heading := by
  rw [lines_markdown, markdownLines, List.cons_append, List.flatMap_cons, Text.lines_of_isLine h]
  rfl

theorem getLast?_lines_markdown (hresult : report.result = .scalar v) (h : IsLine (scalarText v)) :
    (lines report.markdown).getLast? = some s!"## Result: **{scalarText v}**" := by
  -- Details may have newlines of their own, so only the result is known to be a single line.
  have hline : IsLine s!"## Result: **{scalarText v}**" :=
    (IsLine.append (by decide) h).append (by decide)
  have hlines : resultLines report.result = [s!"## Result: **{scalarText v}**"] := by
    rw [hresult, resultLines]
  rw [lines_markdown, markdownLines, hlines, List.flatMap_append, List.flatMap_singleton,
    Text.lines_of_isLine hline, List.getLast?_concat]

end Report

end Calculator
