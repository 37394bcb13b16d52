import Calculator.Proofs.Json.Value
import Calculator.Report.Document

/-!
# Reports without gaps

A value is complete when no part of it is null and every float in it is finite. A report is complete
when its result and its details are, and then so is the value that it is given as.
-/

namespace Calculator

namespace Json

variable {u v : Json} {items : List Json} {ms : List (String × Json)} {x : Float}

structure IsComplete (v : Json) : Prop where
  not_null : ¬PartOf .null v
  finite : v.FiniteFloats

theorem isComplete_scalar (hself : ∀ u, PartOf u v → u = v) (hnull : v ≠ .null)
    (hfloat : ∀ x, v = .float x → x.isFinite = true) : v.IsComplete :=
  ⟨fun h => hnull (hself .null h).symm, fun x h => hfloat x (hself (.float x) h).symm⟩

theorem isComplete_bool (b : Bool) : (Json.bool b).IsComplete :=
  isComplete_scalar (by rintro u ⟨⟩; rfl) nofun nofun

theorem isComplete_whole (n : Whole) : (Json.whole n).IsComplete :=
  isComplete_scalar (by rintro u ⟨⟩; rfl) nofun nofun

theorem isComplete_string (s : String) : (Json.string s).IsComplete :=
  isComplete_scalar (by rintro u ⟨⟩; rfl) nofun nofun

theorem isComplete_float (h : x.isFinite = true) : (Json.float x).IsComplete :=
  isComplete_scalar (by rintro u ⟨⟩; rfl) nofun (by rintro y ⟨⟩; exact h)

theorem isComplete_array (h : ∀ v ∈ items, v.IsComplete) : (Json.array items).IsComplete := by
  constructor
  · rintro (_ | ⟨hv, hnull⟩)
    exact (h _ hv).not_null hnull
  · rintro x (_ | ⟨hv, hx⟩)
    exact (h _ hv).finite x hx

theorem isComplete_object (h : ∀ m ∈ ms, m.2.IsComplete) : (Json.object ms).IsComplete := by
  constructor
  · rintro (_ | _ | ⟨hm, hnull⟩)
    exact (h _ hm).not_null hnull
  · rintro x (_ | _ | ⟨hm, hx⟩)
    exact (h _ hm).finite x hx

theorem IsComplete.item (h : (Json.array items).IsComplete) (hv : v ∈ items) : v.IsComplete :=
  ⟨fun hnull => h.not_null (.item hv hnull), fun x hx => h.finite x (.item hv hx)⟩

theorem IsComplete.member {m : String × Json} (h : (Json.object ms).IsComplete)
    (hm : m ∈ ms) : m.2.IsComplete :=
  ⟨fun hnull => h.not_null (.member hm hnull), fun x hx => h.finite x (.member hm hx)⟩

theorem isComplete_ofMembers (h : ∀ m ∈ ms, m.2.IsComplete) : (ofMembers ms).IsComplete := by
  apply isComplete_object
  intro m hm
  exact h m (mem_of_mem_putAll hm)

mutual

theorem IsComplete.sorted : {v : Json} → v.IsComplete → v.sorted.IsComplete
  | .array items, h => by
    rw [Json.sorted]
    exact isComplete_array (isComplete_sortedItems items fun v hv => h.item hv)
  | .object ms, h => by
    rw [Json.sorted]
    exact isComplete_ofMembers (isComplete_sortedMembers ms fun m hm => h.member hm)
  | .null, h => by rwa [Json.sorted] <;> simp
  | .bool _, h => by rwa [Json.sorted] <;> simp
  | .whole _, h => by rwa [Json.sorted] <;> simp
  | .float _, h => by rwa [Json.sorted] <;> simp
  | .string _, h => by rwa [Json.sorted] <;> simp

theorem isComplete_sortedItems :
    (items : List Json) → (∀ v ∈ items, v.IsComplete) → ∀ v ∈ sortedItems items, v.IsComplete
  | [], _ => by simp [sortedItems]
  | v :: rest, h => by
    rw [sortedItems, List.forall_mem_cons]
    exact ⟨(h v List.mem_cons_self).sorted, isComplete_sortedItems rest fun u hu => h u
      (List.mem_cons_of_mem v hu)⟩

theorem isComplete_sortedMembers :
    (ms : List (String × Json)) → (∀ m ∈ ms, m.2.IsComplete) → ∀ m ∈ sortedMembers ms,
      m.2.IsComplete
  | [], _ => by simp [sortedMembers]
  | (key, v) :: rest, h => by
    rw [sortedMembers, List.forall_mem_cons]
    exact ⟨(h (key, v) List.mem_cons_self).sorted,
      isComplete_sortedMembers rest fun n hn => h n (List.mem_cons_of_mem _ hn)⟩

end

end Json

namespace Report

variable {α : Type} {key : String} {field : Field} {entry : String × Field}
  {details details' : Details} {items : List Field} {x : Float} {xs : List Float}

def Field.IsComplete (field : Field) : Prop :=
  field.document.IsComplete

def Details.IsComplete (details : Details) : Prop :=
  ∀ entry ∈ details, entry.2.IsComplete

namespace Field

@[simp] theorem isComplete_string (s : String) : (Field.string s).IsComplete :=
  Json.isComplete_string s

@[simp] theorem isComplete_bool (b : Bool) : (Field.bool b).IsComplete :=
  Json.isComplete_bool b

@[simp] theorem isComplete_size (n : Nat) : (Field.size n).IsComplete :=
  Json.isComplete_whole (.ofNat n)

theorem isComplete_float (h : x.isFinite = true) : (Field.float x).IsComplete := by
  rw [float_of_isFinite h]
  exact Json.isComplete_float h

theorem isFinite_of_isComplete_float (h : (float x).IsComplete) : x.isFinite = true := by
  by_contra hx
  have hnull : float x = .scalar .null := by simp [float, hx]
  rw [hnull] at h
  exact h.not_null (.self .null)

theorem isComplete_list (h : ∀ field ∈ items, field.IsComplete) :
    (Field.list items).IsComplete := by
  rw [IsComplete, document, itemsDocument_eq_map]
  apply Json.isComplete_array
  rw [List.forall_mem_map]
  exact h

theorem isComplete_map (h : details.IsComplete) : (Field.map details).IsComplete := by
  rw [IsComplete, document, entriesDocument_eq_map]
  apply Json.isComplete_object
  rw [List.forall_mem_map]
  exact h

theorem isComplete_floats (h : ∀ x ∈ xs, x.isFinite = true) : (Field.floats xs).IsComplete := by
  apply isComplete_list
  rw [List.forall_mem_map]
  intro x hx
  exact isComplete_float (h x hx)

end Field

namespace Details

@[simp] theorem isComplete_nil : Details.IsComplete [] :=
  nofun

@[simp] theorem isComplete_cons :
    Details.IsComplete (entry :: details) ↔ entry.2.IsComplete ∧ details.IsComplete :=
  List.forall_mem_cons

@[simp] theorem isComplete_append :
    Details.IsComplete (details ++ details') ↔ details.IsComplete ∧ details'.IsComplete :=
  List.forall_mem_append

theorem isComplete_of_map {f : α → String × Field} {as : List α}
    (h : ∀ a ∈ as, (f a).2.IsComplete) :
    Details.IsComplete (as.map f) := by
  rw [IsComplete, List.forall_mem_map]
  exact h

end Details

end Report

structure Report.IsComplete (report : Report) : Prop where
  result : report.result.IsComplete
  details : report.details.IsComplete

theorem Report.IsComplete.value {report : Report} (h : report.IsComplete) :
    report.value.IsComplete := by
  apply Json.IsComplete.sorted
  apply Json.isComplete_object
  simp only [List.forall_mem_cons, List.not_mem_nil, false_implies, implies_true, and_true]
  exact ⟨Json.isComplete_string report.operation, h.result, Field.isComplete_map h.details⟩

end Calculator
