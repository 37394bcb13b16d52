import Calculator.Proofs.Report.Markdown
import Calculator.Proofs.Text.Casing

/-!
# The skeleton of a report for reading

A report for reading has one line for its heading, one for each plain value, and one for each part
of a list or mapping behind a line of its own. A value stands in its line as it is. So a line breaks
where a text in it has a line feed, and nowhere else.
-/

namespace Calculator

open Text (IsLine lines breaks breaks_append breaks_of_isLine breaks_intercalate)

theorem isLine_whole (n : Json.Whole) : IsLine (Json.whole n).text := by
  intro hnewline
  have hrenders : Json.Renders (.whole n) (Json.write .plain (.whole n)) :=
    Json.renders_write Json.isFaithful_plain _ (by rintro x ⟨⟩)
  rw [Json.text, String.toList_ofList] at hnewline
  generalize Json.write .plain (.whole n) = t at hrenders hnewline
  cases hrenders with
  | number => exact absurd (Json.Numeral.isSpace_of_mem_chars hnewline) (by decide)

namespace Text

theorem notMem_upperChar {c : Char} (hc : c.toNat < 0x80) (hne : c ≠ '\n') : '\n' ∉ upperChar c :=
  forall_char_of_forall_lt (P := fun c => c ≠ '\n' → '\n' ∉ upperChar c)
    (by decide +kernel) c hc hne

theorem notMem_lowerChar {c : Char} (hc : c.toNat < 0x80) (hne : c ≠ '\n') :
    '\n' ∉ lowerChar c := by
  rw [lowerChar_of_ascii hc]
  exact forall_char_of_forall_lt (P := fun c => c ≠ '\n' → '\n' ∉ [c.toLower]) (by decide) c hc hne

end Text

namespace Report

theorem isLine_humanize {key : String} (h : ∀ c ∈ key.toList, c.toNat < 0x80 ∧ c ≠ '\n') :
    IsLine (humanize key) := by
  have hword :
      ∀ word ∈ Text.split '_' key.toList, breaks (String.ofList (Text.capitalize word)) = 0 := by
    intro word hword
    have hchars : ∀ c ∈ word, c.toNat < 0x80 ∧ c ≠ '\n' :=
      fun c hc => h c (Text.mem_of_mem_split hword hc)
    apply breaks_of_isLine
    rw [IsLine, String.toList_ofList]
    cases word with
    | nil => exact List.not_mem_nil
    | cons c cs =>
      obtain ⟨hc, hcs⟩ := List.forall_mem_cons.1 hchars
      rw [Text.capitalize, List.mem_append, not_or]
      refine ⟨Text.notMem_upperChar hc.1 hc.2, fun hnewline => ?_⟩
      obtain ⟨d, hd, hnewline⟩ := List.mem_flatMap.1 hnewline
      exact Text.notMem_lowerChar (hcs d hd).1 (hcs d hd).2 hnewline
  rw [← Text.breaks_eq_zero_iff, humanize, breaks_intercalate (by decide), List.map_map]
  exact List.sum_eq_zero (List.forall_mem_map.2 hword)

variable {report : Report} {field : Field} {details : Details}

def Field.breaks (field : Field) : Nat :=
  Text.breaks field.inlineText

def Details.breaks (details : Details) : Nat :=
  (details.map fun entry => Text.breaks (humanize entry.1) + entry.2.breaks).sum

def Field.height : Field → Nat
  | .scalar _ => 1
  | .map entries => 1 + entries.length
  | .list items => 1 + items.length

/-- The number of lines that a report takes up, if nothing in it breaks its line. -/
def height (report : Report) : Nat :=
  2 + (if report.details.isEmpty then 0 else (report.details.map (·.2.height)).sum + 1) +
    report.result.height

namespace Field

@[simp] theorem breaks_string (s : String) : (Field.string s).breaks = Text.breaks s := by
  rw [breaks, string, inlineText, scalarText]

@[simp] theorem breaks_size (n : Nat) : (Field.size n).breaks = 0 := by
  rw [breaks, size, inlineText]
  exact breaks_of_isLine (isLine_whole _)

@[simp] theorem breaks_bool (b : Bool) : (Field.bool b).breaks = 0 := by
  cases b <;> rfl

theorem itemsTexts_eq_map (items : List Field) : itemsTexts items = items.map inlineText := by
  induction items with
  | nil => rfl
  | cons field items ih => rw [itemsTexts, ih, List.map_cons]

theorem entriesTexts_eq_map (entries : List (String × Field)) :
    entriesTexts entries = entries.map fun entry => s!"{entry.1}: {entry.2.inlineText}" := by
  induction entries with
  | nil => rfl
  | cons entry entries ih =>
    rw [entriesTexts, ih, List.map_cons]

theorem breaks_joined (texts : List String) :
    Text.breaks (", ".intercalate texts) = (texts.map Text.breaks).sum :=
  breaks_intercalate (by decide) texts

theorem breaks_marked {mark : String} (hmark : IsLine mark) (s : String) :
    Text.breaks (mark ++ s) = Text.breaks s := by
  rw [breaks_append, breaks_of_isLine hmark, Nat.zero_add]

theorem breaks_enclosed {mark close : String} (hmark : IsLine mark) (hclose : IsLine close)
    (s : String) :
    Text.breaks (mark ++ s ++ close) = Text.breaks s := by
  rw [breaks_append, breaks_marked hmark, breaks_of_isLine hclose, Nat.add_zero]

theorem breaks_labelled (mark middle : String) (s t : String) (hmark : IsLine mark)
    (hmiddle : IsLine middle) :
    Text.breaks (mark ++ s ++ middle ++ t) = Text.breaks s + Text.breaks t := by
  simp only [breaks_append, breaks_of_isLine hmark, breaks_of_isLine hmiddle,
    Nat.zero_add, Nat.add_zero]

theorem breaks_list (items : List Field) : (Field.list items).breaks = (items.map breaks).sum := by
  have htext : (Field.list items).inlineText = "[" ++ ", ".intercalate (itemsTexts items) ++
    "]" := by rw [inlineText]; rfl
  rw [breaks, htext, breaks_enclosed (by decide) (by decide), breaks_joined,
    itemsTexts_eq_map, List.map_map]
  rfl

theorem breaks_map (entries : List (String × Field)) :
    (Field.map entries).breaks = (entries.map fun entry => Text.breaks entry.1 +
      entry.2.breaks).sum := by
  rw [breaks, inlineText, breaks_joined, entriesTexts_eq_map, List.map_map]
  congr 1
  apply List.map_congr_left
  intro entry _
  exact breaks_labelled "" ": " entry.1 entry.2.inlineText (by decide) (by decide)

end Field

theorem breaks_itemLines (indent : String) (hindent : IsLine indent) (items : List Field) :
    ((itemLines indent items).map Text.breaks).sum = (Field.list items).breaks := by
  rw [Field.breaks_list, itemLines, List.map_map]
  congr 1
  apply List.map_congr_left
  intro field _
  exact Field.breaks_marked (hindent.append (by decide : IsLine "- ")) field.inlineText

theorem breaks_entryLines (indent : String) (hindent : IsLine indent)
    (entries : List (String × Field)) :
    ((entryLines indent entries).map Text.breaks).sum = (Field.map entries).breaks := by
  rw [Field.breaks_map, entryLines, List.map_map]
  congr 1
  apply List.map_congr_left
  intro entry _
  exact Field.breaks_labelled (indent ++ "- **") "**: " entry.1 entry.2.inlineText
    (hindent.append (by decide)) (by decide)

theorem breaks_detailLines (hfield : ∀ x, field ≠ .scalar (.float x)) (key : String) :
    ((detailLines key field).map Text.breaks).sum = Text.breaks (humanize key) + field.breaks := by
  cases field with
  | scalar value =>
    have hdetail : detailText value = (Field.scalar value).inlineText := by
      rw [Field.inlineText, detailText]
      rintro x rfl
      exact hfield x rfl
    rw [detailLines, List.map_singleton, List.sum_singleton, hdetail]
    exact Field.breaks_labelled "- **" "**: " _ _ (by decide) (by decide)
  | list items =>
    rw [detailLines, List.map_cons, List.sum_cons, breaks_itemLines "  " (by decide)]
    rw [show Text.breaks s!"- **{humanize key}**:" = Text.breaks (humanize key) from
      Field.breaks_enclosed (by decide) (by decide) _]
  | map entries =>
    rw [detailLines, List.map_cons, List.sum_cons, breaks_entryLines "  " (by decide)]
    rw [show Text.breaks s!"- **{humanize key}**:" = Text.breaks (humanize key) from
      Field.breaks_enclosed (by decide) (by decide) _]

theorem breaks_resultLines (field : Field) :
    ((resultLines field).map Text.breaks).sum = field.breaks := by
  cases field with
  | scalar value =>
    rw [resultLines, List.map_singleton, List.sum_singleton]
    rw [Field.breaks, Field.inlineText]
    exact Field.breaks_enclosed (by decide) (by decide) (scalarText value)
  | list items =>
    rw [resultLines, List.map_cons, List.sum_cons, breaks_itemLines "" (by decide)]
    exact Nat.zero_add _
  | map entries =>
    rw [resultLines, List.map_cons, List.sum_cons, breaks_entryLines "" (by decide)]
    exact Nat.zero_add _

theorem breaks_detailsLines (h : ∀ entry ∈ details, ∀ x, entry.2 ≠ .scalar (.float x)) :
    ((detailsLines details).map Text.breaks).sum = details.breaks := by
  have hlines : ((details.flatMap fun entry => detailLines entry.1 entry.2).map Text.breaks).sum =
      details.breaks := by
    rw [List.map_flatMap, List.flatMap_def, List.sum_flatten, List.map_map, Details.breaks]
    congr 1
    apply List.map_congr_left
    intro entry hentry
    exact breaks_detailLines (h entry hentry) entry.1
  unfold detailsLines
  split
  · next hempty =>
    rw [List.isEmpty_iff.1 hempty]
    rfl
  · rw [List.map_append, List.sum_append]
    exact (Nat.add_zero _).trans hlines

theorem length_detailLines (key : String) (field : Field) :
    (detailLines key field).length = field.height := by
  cases field with
  | scalar value => rfl
  | list items => simp [detailLines, itemLines, Field.height, Nat.add_comm]
  | map entries => simp [detailLines, entryLines, Field.height, Nat.add_comm]

theorem length_resultLines (field : Field) : (resultLines field).length = field.height := by
  cases field with
  | scalar value => rfl
  | list items => simp [resultLines, itemLines, Field.height, Nat.add_comm]
  | map entries => simp [resultLines, entryLines, Field.height, Nat.add_comm]

theorem length_detailsLines (details : Details) : (detailsLines details).length =
    if details.isEmpty then 0 else (details.map (·.2.height)).sum + 1 := by
  have hlines : (details.flatMap fun entry => detailLines entry.1 entry.2).length =
      (details.map (·.2.height)).sum := by
    rw [List.length_flatMap]
    congr 1
    apply List.map_congr_left
    intro entry _
    exact length_detailLines entry.1 entry.2
  unfold detailsLines
  split
  · rfl
  · rw [List.length_append]
    exact congrArg (· + 1) hlines

theorem length_markdownLines (report : Report) : report.markdownLines.length = report.height := by
  rw [markdownLines, List.length_append, List.length_cons, List.length_cons,
    length_detailsLines, length_resultLines, height, Nat.add_comm 2]

/-- A report has the lines of its skeleton, and one more for each line feed of the texts in it. -/
theorem length_lines_markdown (hheading : IsLine report.heading)
    (h : ∀ entry ∈ report.details, ∀ x, entry.2 ≠ .scalar (.float x)) :
    (lines report.markdown).length = report.height +
      (report.details.breaks + report.result.breaks) := by
  have hbreaks : (report.markdownLines.map Text.breaks).sum =
      report.details.breaks + report.result.breaks := by
    rw [markdownLines, List.map_append, List.sum_append, List.map_cons,
      List.map_cons, List.sum_cons, List.sum_cons,
      breaks_of_isLine hheading, breaks_of_isLine (s := "") (by decide),
      breaks_detailsLines h, breaks_resultLines, Nat.zero_add, Nat.zero_add]
  rw [lines_markdown, Text.length_flatMap_lines, length_markdownLines, hbreaks]

theorem lines_markdown_of_length (h : (lines report.markdown).length = report.height) :
    lines report.markdown = report.markdownLines := by
  rw [lines_markdown, Text.length_flatMap_lines, length_markdownLines, Nat.add_eq_left] at h
  rw [lines_markdown]
  apply Text.flatMap_lines_of_isLine
  intro s hs
  exact Text.breaks_eq_zero_iff.1 (List.sum_eq_zero_iff.1 h _ (List.mem_map_of_mem hs))

end Report

end Calculator
