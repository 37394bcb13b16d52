import Calculator.Json.Writer
import Calculator.Report.Basic
import Calculator.Text.Casing
import Calculator.Text.Split

/-!
# Reports for reading

A report in Markdown: a heading, a list of the details, and the result. Numbers have six places
among the details and their shortest digits everywhere else.
-/

namespace Calculator.Report

/-- A key as words: `input_size_bytes` becomes `Input Size Bytes`. -/
def humanize (key : String) : String :=
  " ".intercalate ((Text.split '_' key.toList).map fun word => String.ofList (Text.capitalize word))

def scalarText : Json → String
  | .string s => s
  | .float x => floatText .plain x
  | value => value.text

def detailText : Json → String
  | .float x => floatFixed 6 x
  | value => scalarText value

mutual

def Field.inlineText : Field → String
  | .scalar value => scalarText value
  | .map entries => ", ".intercalate (entriesTexts entries)
  | .list items =>
    let texts := ", ".intercalate (itemsTexts items)
    s!"[{texts}]"

def entriesTexts : List (String × Field) → List String
  | [] => []
  | (key, field) :: rest =>
    let text := field.inlineText
    s!"{key}: {text}" :: entriesTexts rest

def itemsTexts : List Field → List String
  | [] => []
  | field :: rest => field.inlineText :: itemsTexts rest

end

def entryLines (indent : String) (entries : List (String × Field)) : List String :=
  entries.map fun (key, field) => s!"{indent}- **{key}**: {field.inlineText}"

def itemLines (indent : String) (items : List Field) : List String :=
  items.map fun field => s!"{indent}- {field.inlineText}"

def detailLines (key : String) : Field → List String
  | .scalar value => [s!"- **{humanize key}**: {detailText value}"]
  | .list items => s!"- **{humanize key}**:" :: itemLines "  " items
  | .map entries => s!"- **{humanize key}**:" :: entryLines "  " entries

def resultLines : Field → List String
  | .scalar value => [s!"## Result: **{scalarText value}**"]
  | .map entries => "## Results:" :: entryLines "" entries
  | .list items => "## Results:" :: itemLines "" items

def heading (report : Report) : String :=
  match report.verdict with
  | some verdict => s!"# {report.operation} {verdict}"
  | none => s!"# {report.operation}"

def detailsLines (details : Details) : List String :=
  if details.isEmpty then []
  else details.flatMap (fun (key, field) => detailLines key field) ++ [""]

def markdownLines (report : Report) : List String :=
  report.heading :: "" :: detailsLines report.details ++ resultLines report.result

def markdown (report : Report) : String :=
  "\n".intercalate report.markdownLines

end Calculator.Report
