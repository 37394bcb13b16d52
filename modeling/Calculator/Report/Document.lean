import Calculator.Json.Writer
import Calculator.Report.Basic

/-!
# Reports as documents

The document of a report has the members `operation`, `result` and `details` in this order, and
every mapping keeps its own. The text lays the document out; the value has the keys of all objects
in order.
-/

namespace Calculator.Report

mutual

def Field.document : Field → Json
  | .scalar value => value
  | .map entries => .object (entriesDocument entries)
  | .list items => .array (itemsDocument items)

def entriesDocument : List (String × Field) → List (String × Json)
  | [] => []
  | (key, field) :: rest => (key, field.document) :: entriesDocument rest

def itemsDocument : List Field → List Json
  | [] => []
  | field :: rest => field.document :: itemsDocument rest

end

theorem entriesDocument_eq_map (entries : List (String × Field)) :
    entriesDocument entries = entries.map fun e => (e.1, e.2.document) := by
  induction entries with
  | nil => rfl
  | cons e rest ih => simp [entriesDocument, ih]

theorem itemsDocument_eq_map (items : List Field) :
    itemsDocument items = items.map Field.document := by
  induction items with
  | nil => rfl
  | cons field rest ih => simp [itemsDocument, ih]

def document (report : Report) : Json :=
  .object [
    ("operation", .string report.operation),
    ("result", report.result.document),
    ("details", .object (entriesDocument report.details))]

def documentText (report : Report) : String :=
  report.document.prettyText

def value (report : Report) : Json :=
  report.document.sorted

end Calculator.Report
