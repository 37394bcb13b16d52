import Calculator.Text.Split
import Mathlib.Algebra.GroupWithZero.Nat

/-!
# Lines

The lines of a text are its parts between newlines. Texts that are joined by newlines have the lines
of each in turn.
-/

namespace Calculator.Text

variable {s t : String}

def lines (s : String) : List String :=
  (split '\n' s.toList).map String.ofList

def IsLine (s : String) : Prop :=
  '\n' ∉ s.toList

instance (s : String) : Decidable (IsLine s) :=
  inferInstanceAs (Decidable ('\n' ∉ s.toList))

theorem IsLine.append (hs : IsLine s) (ht : IsLine t) : IsLine (s ++ t) := by
  rw [IsLine, String.toList_append, List.mem_append, not_or]
  exact ⟨hs, ht⟩

theorem lines_of_isLine (h : IsLine s) : lines s = [s] := by
  rw [lines, split_of_notMem h, List.map_singleton, String.ofList_toList]

theorem split_append (separator : Char) (cs ds : List Char) :
    split separator (cs ++ separator :: ds) = split separator cs ++ split separator ds := by
  induction cs with
  | nil => exact split_cons_separator separator ds
  | cons c cs ih =>
    obtain ⟨part, parts, hparts⟩ := List.exists_cons_of_ne_nil (split_ne_nil separator cs)
    by_cases hc : c = separator
    · simp only [List.cons_append, split, hc, if_true, ih]
    · simp only [List.cons_append, split, hc, if_false, ih, hparts]

theorem lines_append_newline (s t : String) : lines (s ++ "\n" ++ t) = lines s ++ lines t := by
  have hnewline : ("\n" : String).toList = ['\n'] := rfl
  rw [lines, String.toList_append, String.toList_append, hnewline, List.append_assoc,
    List.singleton_append, split_append, List.map_append]
  rfl

theorem lines_intercalate (s : String) (rest : List String) :
    lines ("\n".intercalate (s :: rest)) = (s :: rest).flatMap lines := by
  induction rest generalizing s with
  | nil => simp
  | cons t rest ih => rw [String.intercalate_cons_cons, lines_append_newline,
      ih, ← List.flatMap_cons]

def breaks (s : String) : Nat :=
  s.toList.count '\n'

@[simp] theorem breaks_append (s t : String) : breaks (s ++ t) = breaks s + breaks t := by
  rw [breaks, String.toList_append, List.count_append]
  rfl

theorem breaks_eq_zero_iff : breaks s = 0 ↔ IsLine s :=
  List.count_eq_zero

theorem breaks_of_isLine (h : IsLine s) : breaks s = 0 :=
  breaks_eq_zero_iff.2 h

theorem length_split (separator : Char) (cs : List Char) :
    (split separator cs).length = cs.count separator + 1 := by
  induction cs with
  | nil => rfl
  | cons c cs ih =>
    by_cases hc : c = separator
    · subst hc
      rw [split_cons_separator, List.length_cons, ih, List.count_cons_self]
    · obtain ⟨part, parts, hparts⟩ := List.exists_cons_of_ne_nil (split_ne_nil separator cs)
      rw [hparts, List.length_cons] at ih
      rw [List.count_cons_of_ne hc, ← ih]
      simp only [split, hc, if_false, hparts, List.length_cons]

theorem length_lines (s : String) : (lines s).length = breaks s + 1 := by
  rw [lines, List.length_map, length_split, breaks]

theorem length_flatMap_lines (texts : List String) :
    (texts.flatMap lines).length = texts.length + (texts.map breaks).sum := by
  induction texts with
  | nil => rfl
  | cons s texts ih =>
    rw [List.flatMap_cons, List.length_append, length_lines, ih, List.length_cons,
      List.map_cons, List.sum_cons]
    omega

theorem flatMap_lines_of_isLine {texts : List String} (h : ∀ s ∈ texts, IsLine s) :
    texts.flatMap lines = texts := by
  induction texts with
  | nil => rfl
  | cons s texts ih =>
    obtain ⟨hs, htexts⟩ := List.forall_mem_cons.1 h
    rw [List.flatMap_cons, lines_of_isLine hs, ih htexts, List.singleton_append]

theorem breaks_intercalate {separator : String} (h : breaks separator = 0) (texts : List String) :
    breaks (separator.intercalate texts) = (texts.map breaks).sum := by
  induction texts with
  | nil => rfl
  | cons s texts ih =>
    cases texts with
    | nil => simp
    | cons t texts =>
      rw [String.intercalate_cons_cons, breaks_append, breaks_append, h, ih]
      simp

theorem mem_of_mem_split {separator c : Char} {cs part : List Char} (h : part ∈ split separator cs)
    (hc : c ∈ part) :
    c ∈ cs := by
  induction cs generalizing part with
  | nil =>
    rw [split_nil, List.mem_singleton] at h
    exact h ▸ hc
  | cons d cs ih =>
    by_cases hd : d = separator
    · rw [hd, split_cons_separator, List.mem_cons] at h
      rcases h with rfl | h
      · exact absurd hc List.not_mem_nil
      · exact List.mem_cons_of_mem d (ih h hc)
    · obtain ⟨first, parts, hparts⟩ := List.exists_cons_of_ne_nil (split_ne_nil separator cs)
      simp only [split, hd, if_false, hparts, List.mem_cons] at h
      rcases h with rfl | h
      · rcases List.mem_cons.1 hc with rfl | hc
        · exact List.mem_cons_self
        · exact List.mem_cons_of_mem d (ih (hparts ▸ List.mem_cons_self) hc)
      · exact List.mem_cons_of_mem d (ih (hparts ▸ List.mem_cons_of_mem first h) hc)

end Calculator.Text
