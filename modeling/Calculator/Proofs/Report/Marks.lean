import Calculator.Proofs.Report.Skeleton

/-!
# What the lines of a report begin with

The shape of a report tells what each of its lines begins with, before any value stands in it: the
heading, a blank line, a bullet with its key for every detail, indented bullets for the parts of a
detail, and the result behind a heading of its own. The values only come behind these marks.
-/

namespace Calculator

namespace Report

/-- What is fixed of a line: all of it, or what it begins with. -/
inductive Mark where
  | whole (text : String)
  | opening (text : String)

def Mark.IsOf : Mark → String → Prop
  | .whole text, line => line = text
  | .opening text, line => ∃ value, line = text ++ value

def lineStarts : List String :=
  ["# ", "- ", "  - ", "## Result: **", "## Results:"]

def HasStart (text : String) : Prop :=
  ∃ start ∈ lineStarts, start.toList <+: text.toList

instance (text : String) : Decidable (HasStart text) :=
  inferInstanceAs (Decidable (∃ start ∈ lineStarts, start.toList <+: text.toList))

variable {report : Report} {field : Field} {details : Details} {mark : Mark} {line : String}

def partMarks (indent : String) : Field → List Mark
  | .scalar _ => []
  | .map entries => entries.map fun entry => .opening (indent ++ "- **" ++ entry.1 ++ "**: ")
  | .list items => items.map fun _ => .opening (indent ++ "- ")

def detailMarks (key : String) : Field → List Mark
  | .scalar _ => [.opening ("- **" ++ humanize key ++ "**: ")]
  | field => .whole ("- **" ++ humanize key ++ "**:") :: partMarks "  " field

def resultMarks : Field → List Mark
  | .scalar _ => [.opening "## Result: **"]
  | field => .whole "## Results:" :: partMarks "" field

/-- The marks of all lines, one for each. -/
def skeleton (report : Report) : List Mark :=
  .opening "# " :: .whole "" ::
    (if report.details.isEmpty then []
      else report.details.flatMap (fun entry => detailMarks entry.1 entry.2) ++ [.whole ""]) ++
    resultMarks report.result

theorem forall₂_map {α β γ : Type} {R : β → γ → Prop} {f : α → β} {g : α → γ}
    (h : ∀ a, R (f a) (g a)) (as : List α) :
    List.Forall₂ R (as.map f) (as.map g) :=
  List.forall₂_map_left_iff.2 (List.forall₂_map_right_iff.2 (List.forall₂_same.2 fun a _ => h a))

theorem forall₂_flatMap {α β γ : Type} {R : β → γ → Prop} {f : α → List β} {g : α → List γ}
    (h : ∀ a, List.Forall₂ R (f a) (g a)) (as : List α) : List.Forall₂ R (as.flatMap f)
    (as.flatMap g) := by
  induction as with
  | nil => exact .nil
  | cons a as ih =>
    rw [List.flatMap_cons, List.flatMap_cons]
    exact List.rel_append (h a) ih

theorem isOf_entryLines (indent : String) (entries : List (String × Field)) :
    List.Forall₂ Mark.IsOf (partMarks indent (.map entries)) (entryLines indent entries) :=
  forall₂_map (fun entry => ⟨entry.2.inlineText, rfl⟩) entries

theorem isOf_itemLines (indent : String) (items : List Field) :
    List.Forall₂ Mark.IsOf (partMarks indent (.list items)) (itemLines indent items) :=
  forall₂_map (fun item => ⟨item.inlineText, rfl⟩) items

theorem isOf_detailLines (key : String) (field : Field) :
    List.Forall₂ Mark.IsOf (detailMarks key field) (detailLines key field) := by
  cases field with
  | scalar value => exact .cons ⟨detailText value, rfl⟩ .nil
  | list items => exact .cons rfl (isOf_itemLines "  " items)
  | map entries => exact .cons rfl (isOf_entryLines "  " entries)

theorem isOf_resultLines (field : Field) :
    List.Forall₂ Mark.IsOf (resultMarks field) (resultLines field) := by
  cases field with
  | scalar value =>
    refine .cons ⟨scalarText value ++ "**", ?_⟩ .nil
    rw [← String.append_assoc]
    rfl
  | list items => exact .cons rfl (isOf_itemLines "" items)
  | map entries => exact .cons rfl (isOf_entryLines "" entries)

theorem isOf_heading (report : Report) : (Mark.opening "# ").IsOf report.heading := by
  unfold heading
  split
  · next verdict _ =>
    refine ⟨report.operation ++ (" " ++ verdict), ?_⟩
    simp only [← String.append_assoc]
    rfl
  · exact ⟨report.operation, rfl⟩

/-- Every line of a report begins with its mark. -/
theorem isOf_markdownLines (report : Report) :
    List.Forall₂ Mark.IsOf report.skeleton report.markdownLines := by
  have hdetails := forall₂_flatMap (fun entry => isOf_detailLines entry.1 entry.2) report.details
  refine .cons report.isOf_heading (.cons rfl (List.rel_append ?_ (isOf_resultLines report.result)))
  unfold detailsLines
  split
  · exact .nil
  · exact List.rel_append hdetails (.cons rfl .nil)

theorem HasStart.append {text : String} (h : HasStart text) (rest : String) :
    HasStart (text ++ rest) := by
  obtain ⟨start, hstart, hprefix⟩ := h
  refine ⟨start, hstart, hprefix.trans ?_⟩
  rw [String.toList_append]
  exact List.prefix_append _ _

def Mark.IsFixed : Mark → Prop
  | .whole text => text = "" ∨ HasStart text
  | .opening text => HasStart text

theorem Mark.IsFixed.hasStart (h : mark.IsFixed) (hof : mark.IsOf line) :
    line = "" ∨ HasStart line := by
  cases mark with
  | whole text =>
    cases hof
    exact h
  | opening text =>
    obtain ⟨value, rfl⟩ := hof
    exact .inr (HasStart.append h value)

theorem isFixed_of_mem_partMarks {indent : String} (hitem : HasStart (indent ++ "- "))
    (hentry : HasStart (indent ++ "- **")) (h : mark ∈ partMarks indent field) : mark.IsFixed := by
  cases field with
  | scalar value => cases h
  | list items =>
    obtain ⟨item, -, rfl⟩ := List.mem_map.1 h
    exact hitem
  | map entries =>
    obtain ⟨entry, -, rfl⟩ := List.mem_map.1 h
    exact (hentry.append entry.1).append "**: "

theorem isFixed_of_mem_detailMarks {key : String} (h : mark ∈ detailMarks key field) :
    mark.IsFixed := by
  have hkey : HasStart ("- **" ++ humanize key) := HasStart.append (by decide) (humanize key)
  have hparts : mark ∈ partMarks "  " field → mark.IsFixed :=
    isFixed_of_mem_partMarks (by decide) (by decide)
  cases field with
  | scalar value =>
    rw [List.mem_singleton.1 h]
    exact hkey.append "**: "
  | list items | map entries =>
    rcases List.mem_cons.1 h with rfl | h
    · exact .inr (hkey.append "**:")
    · exact hparts h

theorem isFixed_of_mem_resultMarks (h : mark ∈ resultMarks field) : mark.IsFixed := by
  have hparts : mark ∈ partMarks "" field → mark.IsFixed :=
    isFixed_of_mem_partMarks (by decide) (by decide)
  cases field with
  | scalar value =>
    rw [List.mem_singleton.1 h]
    exact (by decide : HasStart "## Result: **")
  | list items | map entries =>
    rcases List.mem_cons.1 h with rfl | h
    · exact .inr (by decide)
    · exact hparts h

theorem isFixed_of_mem_skeleton (h : mark ∈ report.skeleton) : mark.IsFixed := by
  have hblank : (Mark.whole "").IsFixed := .inl rfl
  rcases List.mem_append.1 h with h | h
  · rcases List.mem_cons.1 h with rfl | h
    · exact (by decide : HasStart "# ")
    rcases List.mem_cons.1 h with rfl | h
    · exact hblank
    split at h
    · cases h
    rcases List.mem_append.1 h with h | h
    · obtain ⟨entry, -, h⟩ := List.mem_flatMap.1 h
      exact isFixed_of_mem_detailMarks h
    · rw [List.mem_singleton.1 h]
      exact hblank
  · exact isFixed_of_mem_resultMarks h

theorem hasStart_of_mem_markdownLines (report : Report) :
    ∀ line ∈ report.markdownLines, line = "" ∨ HasStart line := by
  have hmarks : ∀ mark ∈ report.skeleton, mark.IsFixed := fun _ => isFixed_of_mem_skeleton
  have hlines := report.isOf_markdownLines
  generalize report.skeleton = marks, report.markdownLines = lines at hmarks hlines
  induction hlines with
  | nil => exact nofun
  | cons hof _ ih =>
    obtain ⟨hmark, hrest⟩ := List.forall_mem_cons.1 hmarks
    exact List.forall_mem_cons.2 ⟨hmark.hasStart hof, ih hrest⟩

end Report

end Calculator
