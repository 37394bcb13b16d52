import Calculator.Failure
import Calculator.Json.Data
import Calculator.Report.Document
import Calculator.Report.Format
import Calculator.Report.Markdown

/-!
# Reports rendered

A report is rendered in the form that was asked for. As a document it is written from its data,
which may fail: a report that cannot be written is a failure like any other. No report has such
data, since all its keys are texts.
-/

namespace Calculator.Report

mutual

def Field.data : Field → Json.Data
  | .scalar value => value.data
  | .map entries => .map (entriesData entries)
  | .list items => .list (itemsData items)

def entriesData : List (String × Field) → List (Json.Data × Json.Data)
  | [] => []
  | (key, field) :: rest => (.text key, field.data) :: entriesData rest

def itemsData : List Field → List Json.Data
  | [] => []
  | field :: rest => field.data :: itemsData rest

end

def data (report : Report) : Json.Data :=
  .map [
    (.text "operation", .text report.operation),
    (.text "result", report.result.data),
    (.text "details", .map (entriesData report.details))]

def written {α : Type} (result : Except Json.WriteFault α) : Outcome α :=
  result.mapError fun fault => .unwritable fault.message

def render (report : Report) : ResponseFormat → Outcome String
  | .markdown => .ok report.markdown
  | .json => String.ofList <$> written (report.data.layOut .plain 0)

def toValue (report : Report) : Outcome Json :=
  written report.data.value

mutual

theorem Field.data_eq : (field : Field) → field.data = field.document.data
  | .scalar value => by rw [Field.data, Field.document]
  | .map entries => by rw [Field.data, Field.document, Json.data, entriesData_eq entries]
  | .list items => by rw [Field.data, Field.document, Json.data, itemsData_eq items]

theorem entriesData_eq : (entries : List (String × Field)) →
    entriesData entries = Json.membersData (entriesDocument entries)
  | [] => by rw [entriesData, entriesDocument, Json.membersData]
  | (key, field) :: rest => by
    rw [entriesData, entriesDocument, Json.membersData, field.data_eq, entriesData_eq rest]

theorem itemsData_eq : (items : List Field) → itemsData items = Json.itemsData (itemsDocument items)
  | [] => by rw [itemsData, itemsDocument, Json.itemsData]
  | field :: rest => by rw [itemsData, itemsDocument, Json.itemsData,
      field.data_eq, itemsData_eq rest]

end

variable (report : Report)

theorem data_eq : report.data = report.document.data := by
  simp only [data, document, Json.data, Json.membersData, Json.Data.text, report.result.data_eq,
    entriesData_eq report.details]

theorem render_json : report.render .json = .ok report.documentText := by
  rw [render, data_eq, Json.layOut_data]
  rfl

theorem toValue_eq : report.toValue = .ok report.value := by
  rw [toValue, data_eq, Json.value_data]
  rfl

end Calculator.Report
