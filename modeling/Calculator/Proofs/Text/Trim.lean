import Calculator.Text.Blank
import Mathlib.Data.List.DropRight

/-!
# Trimming

Trimmed text has no blank at either end, so trimming it again changes nothing. Text that holds no
blanks is what trimming leaves of it, whatever blanks are put around it.
-/

namespace Calculator.Text

theorem trimChars_eq (cs : List Char) :
    trimChars cs = (cs.dropWhile isBlank).rdropWhile isBlank := rfl

theorem dropWhile_trimChars (cs : List Char) : (trimChars cs).dropWhile isBlank = trimChars cs := by
  have hfirst := List.head?_dropWhile_not isBlank cs
  rw [trimChars_eq]
  obtain ⟨dropped, hprefix⟩ := List.rdropWhile_prefix isBlank (l := cs.dropWhile isBlank)
  cases hkept : (cs.dropWhile isBlank).rdropWhile isBlank with
  | nil => rfl
  | cons c rest =>
    rw [hkept, List.cons_append] at hprefix
    rw [← hprefix, List.head?_cons] at hfirst
    exact List.dropWhile_cons_of_neg (by simpa using hfirst)

theorem trimChars_trimChars (cs : List Char) : trimChars (trimChars cs) = trimChars cs := by
  rw [trimChars_eq, dropWhile_trimChars, trimChars_eq, List.rdropWhile_idempotent]

theorem trim_trim (s : String) : trim (trim s) = trim s := by
  rw [trim, trim, String.toList_ofList, trimChars_trimChars]

structure IsTrimmed (cs : List Char) : Prop where
  head : ∀ c ∈ cs.head?, isBlank c = false
  last : ∀ c ∈ cs.getLast?, isBlank c = false

theorem trimChars_of_isTrimmed {cs : List Char} (h : IsTrimmed cs) : trimChars cs = cs := by
  have hfront : cs.dropWhile isBlank = cs := by
    cases cs with
    | nil => rfl
    | cons c rest => exact List.dropWhile_cons_of_neg (by simp [h.head c rfl])
  rw [trimChars_eq, hfront, List.rdropWhile_eq_self_iff]
  intro hne
  simp [h.last _ (List.getLast_mem_getLast? hne)]

theorem isTrimmed_trimChars (cs : List Char) : IsTrimmed (trimChars cs) := by
  constructor
  · intro c hc
    have hfirst := List.head?_dropWhile_not isBlank (trimChars cs)
    rw [dropWhile_trimChars, hc] at hfirst
    simpa using hfirst
  · intro c hc
    have hlast := List.rdropWhile_idempotent isBlank (cs.dropWhile isBlank)
    rw [← trimChars_eq, List.rdropWhile_eq_self_iff] at hlast
    obtain ⟨hne, rfl⟩ := List.mem_getLast?_eq_getLast hc
    simpa using hlast hne

theorem exists_blanks (cs : List Char) :
    ∃ before after, cs = before ++ trimChars cs ++ after ∧ ∀ c ∈ before ++ after,
      isBlank c = true := by
  refine ⟨cs.takeWhile isBlank, (cs.dropWhile isBlank).rtakeWhile isBlank, ?_, ?_⟩
  · rw [trimChars_eq, List.append_assoc, List.rdropWhile_append_rtakeWhile,
      List.takeWhile_append_dropWhile]
  · intro c hc
    rcases List.mem_append.1 hc with hc | hc
    · exact List.mem_takeWhile_imp hc
    · exact List.mem_rtakeWhile_imp hc

/-- A text that is `inner` with blanks before and behind it. -/
def IsPadded (inner : List Char) (text : String) : Prop :=
  ∃ before after : List Char, (∀ c ∈ before ++ after, isBlank c = true) ∧
    text = String.ofList (before ++ inner ++ after)

theorem isPadded_toList (s : String) : IsPadded s.toList s :=
  ⟨[], [], nofun, by simp⟩

theorem trimChars_of_noBlank {cs : List Char} (h : ∀ c ∈ cs, isBlank c = false) :
    trimChars cs = cs :=
  trimChars_of_isTrimmed
    ⟨fun c hc => h c (List.mem_of_mem_head? hc), fun c hc => h c (List.mem_of_mem_getLast? hc)⟩

theorem trimChars_padded {before inner after : List Char}
    (hblank : ∀ c ∈ before ++ after, isBlank c = true)
    (hinner : ∀ c ∈ inner, isBlank c = false) : trimChars (before ++ inner ++ after) =
      trimChars inner := by
  have hbefore : ∀ c ∈ before, isBlank c = true :=
    fun c hc => hblank c (List.mem_append_left after hc)
  have hafter : ∀ c ∈ after, isBlank c = true :=
    fun c hc => hblank c (List.mem_append_right before hc)
  rw [trimChars_eq, trimChars_eq, List.append_assoc, List.dropWhile_append_of_pos hbefore]
  cases inner with
  | nil =>
    rw [List.nil_append, List.dropWhile_nil, List.dropWhile_eq_nil_iff.2 hafter]
  | cons c rest =>
    have hc : ¬isBlank c = true := by simp [hinner c List.mem_cons_self]
    rw [List.cons_append, List.dropWhile_cons_of_neg hc, List.dropWhile_cons_of_neg hc,
      ← List.cons_append, List.rdropWhile, List.reverse_append,
      List.dropWhile_append_of_pos fun d hd => hafter d (List.mem_reverse.1 hd), List.rdropWhile]

theorem trim_of_isPadded {inner : List Char} {text : String} (h : IsPadded inner text)
    (hinner : ∀ c ∈ inner, isBlank c = false) : trim text = String.ofList inner := by
  obtain ⟨before, after, hblank, rfl⟩ := h
  rw [trim, String.toList_ofList, trimChars_padded hblank hinner, trimChars_of_noBlank hinner]

end Calculator.Text
