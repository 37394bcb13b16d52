import Calculator.Proofs.Json.Layout
import Calculator.Report.Document

/-!
# Reports as documents

The fields of a report are plain values, lists and mappings, nested a few levels deep. So the text
of a report lists its members in the order of the report, and is read as the value of the report.
-/

namespace Calculator

open Json (FiniteFloats depth_array_le_iff depth_object_le_iff)

namespace Report

variable {field : Field} {items : List Field} {entries : List (String × Field)} {n : Nat}

/-- Fields that are made of plain values by lists and mappings, nested at most so deep. -/
inductive Field.NestsWithin : Nat → Field → Prop
  | string {n : Nat} (s : String) : NestsWithin n (.string s)
  | bool {n : Nat} (b : Bool) : NestsWithin n (.bool b)
  | size {n : Nat} (k : Nat) : NestsWithin n (.size k)
  | float {n : Nat} (x : Float) : NestsWithin n (.float x)
  | list {n : Nat} {items : List Field} (h : ∀ field ∈ items, NestsWithin n field) :
      NestsWithin (n + 1) (.list items)
  | map {n : Nat} {entries : List (String × Field)} (h : ∀ entry ∈ entries, NestsWithin n entry.2) :
    NestsWithin (n + 1) (.map entries)

attribute [simp] Field.NestsWithin.string Field.NestsWithin.bool Field.NestsWithin.size
  Field.NestsWithin.float

theorem Field.nestsWithin_floats (xs : List Float) : (Field.floats xs).NestsWithin (n + 1) := by
  apply NestsWithin.list
  intro field hfield
  obtain ⟨x, -, rfl⟩ := List.mem_map.1 hfield
  exact .float x

theorem finiteFloats_entries (h : ∀ entry ∈ entries, FiniteFloats entry.2.document) :
    FiniteFloats (.object (entriesDocument entries)) := by
  rw [entriesDocument_eq_map]
  refine Json.finiteFloats_object fun m hm => ?_
  obtain ⟨entry, hentry, rfl⟩ := List.mem_map.1 hm
  exact h entry hentry

theorem depth_entries_le (h : ∀ entry ∈ entries, entry.2.document.depth ≤ n) :
    (Json.object (entriesDocument entries)).depth ≤ n + 1 := by
  rw [entriesDocument_eq_map, depth_object_le_iff]
  intro m hm
  obtain ⟨entry, hentry, rfl⟩ := List.mem_map.1 hm
  exact h entry hentry

theorem Field.NestsWithin.finiteFloats (h : field.NestsWithin n) : FiniteFloats field.document := by
  induction h with
  | string s => rintro x ⟨⟩
  | bool b => rintro x ⟨⟩
  | size k => rintro x ⟨⟩
  | float x =>
    by_cases hx : x.isFinite = true
    · rw [Field.float_of_isFinite hx]
      rintro y ⟨⟩
      exact hx
    · simp only [Field.float, hx]
      rintro y ⟨⟩
  | list h ih =>
    rw [Field.document, itemsDocument_eq_map]
    rintro x (_ | ⟨hv, hx⟩)
    obtain ⟨field, hfield, rfl⟩ := List.mem_map.1 hv
    exact ih field hfield x hx
  | map h ih => exact finiteFloats_entries ih

theorem Field.NestsWithin.depth_le (h : field.NestsWithin n) : field.document.depth ≤ n := by
  induction h with
  | string s => exact Nat.zero_le _
  | bool b => exact Nat.zero_le _
  | size k => exact Nat.zero_le _
  | float x =>
    by_cases hx : x.isFinite = true
    · rw [Field.float_of_isFinite hx]
      exact Nat.zero_le _
    · simp only [Field.float, hx]
      exact Nat.zero_le _
  | list h ih =>
    rw [Field.document, itemsDocument_eq_map, depth_array_le_iff]
    intro v hv
    obtain ⟨field, hfield, rfl⟩ := List.mem_map.1 hv
    exact ih field hfield
  | map h ih => exact depth_entries_le ih

end Report

structure Report.NestsWithin (n : Nat) (report : Report) : Prop where
  result : report.result.NestsWithin n
  details : ∀ entry ∈ report.details, entry.2.NestsWithin n

namespace Report

variable {report : Report} {n : Nat}

theorem NestsWithin.finiteFloats (h : report.NestsWithin n) : FiniteFloats report.document := by
  have hdetails := finiteFloats_entries fun entry hentry => (h.details entry hentry).finiteFloats
  refine Json.finiteFloats_object fun m hm => ?_
  simp only [List.mem_cons, List.not_mem_nil, or_false] at hm
  rcases hm with rfl | rfl | rfl
  · rintro x ⟨⟩
  · exact h.result.finiteFloats
  · exact hdetails

theorem NestsWithin.depth_le (h : report.NestsWithin n) : report.document.depth ≤ n + 2 := by
  have hdetails := depth_entries_le fun entry hentry => (h.details entry hentry).depth_le
  rw [document, depth_object_le_iff]
  intro m hm
  simp only [List.mem_cons, List.not_mem_nil, or_false] at hm
  rcases hm with rfl | rfl | rfl
  · exact Nat.zero_le _
  · exact Nat.le_succ_of_le h.result.depth_le
  · exact hdetails

theorem rendersInOrder_documentText (h : report.NestsWithin n) :
    Json.RendersInOrder report.document report.documentText.toList :=
  Json.rendersInOrder_prettyText h.finiteFloats

theorem parse_documentText (h : report.NestsWithin n) (hn : n + 2 ≤ Json.depthLimit) :
    Json.parse report.documentText.toList = .ok report.value :=
  Json.parse_of_rendersInOrder (rendersInOrder_documentText h) (Nat.le_trans h.depth_le hn)

theorem value_eq_ofMembers (report : Report) :
    report.value = .ofMembers [
      ("operation", .string report.operation),
      ("result", report.result.document.sorted),
      ("details", (Json.object (entriesDocument report.details)).sorted)] := by
  simp only [value, document, Json.sorted, Json.sortedMembers]

theorem get?_operation (report : Report) :
    report.value.get? "operation" = some (.string report.operation) := by
  rw [value_eq_ofMembers]
  exact Json.get?_ofMembers (by simp) (by simp)

theorem get?_result (report : Report) :
    report.value.get? "result" = some report.result.document.sorted := by
  rw [value_eq_ofMembers]
  exact Json.get?_ofMembers (by simp) (by simp)

end Report

end Calculator
