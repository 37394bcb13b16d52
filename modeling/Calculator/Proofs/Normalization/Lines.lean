import Calculator.Normalization
import Calculator.Proofs.Text.Trim

/-!
# Line endings

A line ends with a newline, with a carriage return, or with both in this order. Writing every line
ending as a newline is the same as first replacing the pairs and then the carriage returns that are
left. It exchanges blanks for blanks only, so it does not matter whether a text is trimmed before or
after.
-/

namespace Calculator.Normalization

open Text

variable {c : Char} {cs s t : List Char}

def replaceAll (pattern replacement : List Char) : List Char → List Char
  | [] => []
  | c :: cs =>
    if pattern <+: c :: cs then
      replacement ++ replaceAll pattern replacement (cs.drop (pattern.length - 1))
    else c :: replaceAll pattern replacement cs
termination_by cs => cs.length
decreasing_by
  · simp only [List.length_drop, List.length_cons]
    omega
  · simp

def newlineOf (c : Char) : Char :=
  if c = '\r' then '\n' else c

theorem newlineOf_ne_return (c : Char) : newlineOf c ≠ '\r' := by
  unfold newlineOf
  split
  · decide
  · assumption

theorem newlineOf_of_ne (h : c ≠ '\r') : newlineOf c = c :=
  if_neg h

theorem isBlank_newlineOf (c : Char) : isBlank (newlineOf c) = isBlank c := by
  unfold newlineOf
  split
  · next h => rw [h, isBlank_newline, isBlank_return]
  · rfl

theorem unifyLines_pair (cs : List Char) :
    unifyLines ('\r' :: '\n' :: cs) = '\n' :: unifyLines cs := by
  rw [unifyLines]

theorem unifyLines_cons (h : c = '\r' → cs.head? ≠ some '\n') :
    unifyLines (c :: cs) = newlineOf c :: unifyLines cs := by
  rw [unifyLines.eq_3 c cs]
  · rfl
  · rintro rest rfl rfl
    exact h rfl rfl

theorem replaceAll_char (a b : Char) (cs : List Char) :
    replaceAll [a] [b] cs = cs.map fun c => if c = a then b else c := by
  induction cs with
  | nil => simp [replaceAll]
  | cons c cs ih =>
    by_cases hc : c = a
    · simp [replaceAll, hc, ih]
    · simp [replaceAll, hc, Ne.symm hc, ih]

theorem replaceAll_cons_of_not_begins {pattern replacement : List Char} (h : ¬pattern <+: c :: cs) :
    replaceAll pattern replacement (c :: cs) = c :: replaceAll pattern replacement cs := by
  rw [replaceAll, if_neg h]

/-- Line endings are unified by replacing the pairs and then every carriage return that is left. -/
theorem unifyLines_eq_replaceAll (cs : List Char) :
    unifyLines cs = replaceAll ['\r'] ['\n'] (replaceAll ['\r', '\n'] ['\n'] cs) := by
  rw [replaceAll_char]
  fun_induction unifyLines cs with
  | case1 => simp [replaceAll]
  | case2 cs ih => simp [replaceAll, ih]
  | case3 c cs hpair ih =>
    have hnot : ¬['\r', '\n'] <+: c :: cs := by
      rintro ⟨rest, hrest⟩
      rw [List.cons_append, List.singleton_append, List.cons.injEq] at hrest
      exact hpair rest hrest.1.symm hrest.2.symm
    rw [replaceAll_cons_of_not_begins hnot, List.map_cons, ih]

theorem return_notMem_unifyLines (cs : List Char) : '\r' ∉ unifyLines cs := by
  fun_induction unifyLines cs with
  | case1 => exact List.not_mem_nil
  | case2 cs ih => simpa using ih
  | case3 c cs _ ih =>
    rw [List.mem_cons, not_or]
    exact ⟨(newlineOf_ne_return c).symm, ih⟩

theorem unifyLines_of_notMem (h : '\r' ∉ cs) : unifyLines cs = cs := by
  induction cs with
  | nil => exact unifyLines_nil
  | cons c cs ih =>
    rw [List.mem_cons, not_or] at h
    have hc : c ≠ '\r' := Ne.symm h.1
    rw [unifyLines_cons fun h => absurd h hc, newlineOf_of_ne hc, ih h.2]

theorem byteCount_unifyLines_le (cs : List Char) : byteCount (unifyLines cs) ≤ byteCount cs := by
  have hbyte : Char.utf8Size '\n' = Char.utf8Size '\r' := rfl
  fun_induction unifyLines cs with
  | case1 => exact Nat.le_refl _
  | case2 cs ih =>
    simp only [byteCount_cons]
    omega
  | case3 c cs _ ih =>
    simp only [byteCount_cons]
    split
    · next h =>
      rw [h]
      omega
    · omega

theorem dropWhile_unifyLines (cs : List Char) :
    (unifyLines cs).dropWhile isBlank = unifyLines (cs.dropWhile isBlank) := by
  fun_induction unifyLines cs with
  | case1 => rw [List.dropWhile_nil, unifyLines_nil]
  | case2 cs ih =>
    rw [List.dropWhile_cons_of_pos isBlank_newline, List.dropWhile_cons_of_pos isBlank_return,
      List.dropWhile_cons_of_pos isBlank_newline, ih]
  | case3 c cs hpair ih =>
    have hblank := isBlank_newlineOf c
    change (newlineOf c :: unifyLines cs).dropWhile isBlank = _
    cases hc : isBlank c with
    | true => rw [List.dropWhile_cons_of_pos (hblank.trans hc), List.dropWhile_cons_of_pos hc, ih]
    | false =>
      rw [List.dropWhile_cons_of_neg (by simp [hblank, hc]),
        List.dropWhile_cons_of_neg (by simp [hc]), unifyLines.eq_3 c cs hpair]
      rfl

theorem unifyLines_concat (cs : List Char) (c : Char) :
    unifyLines (cs ++ [c]) = unifyLines cs ++ [newlineOf c] ∨
      c = '\n' ∧ unifyLines (cs ++ [c]) = unifyLines cs := by
  fun_induction unifyLines cs with
  | case1 => exact .inl (unifyLines_cons (by simp))
  | case2 cs ih =>
    rw [List.cons_append, List.cons_append, unifyLines_pair]
    exact ih.imp (congrArg _) (And.imp_right (congrArg _))
  | case3 d cs hpair ih =>
    by_cases hjoin : d = '\r' ∧ cs = [] ∧ c = '\n'
    · obtain ⟨rfl, rfl, rfl⟩ := hjoin
      exact .inr ⟨rfl, by simp [unifyLines]⟩
    · have hnot : d = '\r' → (cs ++ [c]).head? ≠ some '\n' := by
        intro hd hhead
        cases cs with
        | nil => exact hjoin ⟨hd, rfl, Option.some.inj hhead⟩
        | cons e cs => exact hpair cs hd (by rw [Option.some.inj hhead])
      rw [List.cons_append, unifyLines_cons hnot]
      exact ih.imp (congrArg _) (And.imp_right (congrArg _))

theorem rdropWhile_unifyLines (cs : List Char) :
    (unifyLines cs).rdropWhile isBlank = unifyLines (cs.rdropWhile isBlank) := by
  induction cs using List.reverseRecOn with
  | nil => rw [unifyLines_nil, List.rdropWhile_nil, unifyLines_nil]
  | append_singleton cs c ih =>
    cases hc : isBlank c with
    | true =>
      rw [List.rdropWhile_concat_pos _ _ _ hc, ← ih]
      rcases unifyLines_concat cs c with h | ⟨-, h⟩
      · rw [h, List.rdropWhile_concat_pos _ _ _ ((isBlank_newlineOf c).trans hc)]
      · rw [h]
    | false =>
      rw [List.rdropWhile_concat_neg _ _ _ (by simp [hc])]
      rcases unifyLines_concat cs c with h | ⟨rfl, -⟩
      · rw [h, List.rdropWhile_concat_neg _ _ _ (by simp [isBlank_newlineOf, hc])]
      · exact absurd hc (by simp [isBlank_newline])

theorem trimChars_unifyLines (cs : List Char) :
    trimChars (unifyLines cs) = unifyLines (trimChars cs) := by
  rw [trimChars_eq, trimChars_eq, dropWhile_unifyLines, rdropWhile_unifyLines]

inductive PairsNewlines : List Char → List Char → Prop
  | nil : PairsNewlines [] []
  | keep (c : Char) {s t : List Char} (h : PairsNewlines s t) : PairsNewlines (c :: s) (c :: t)
  | pair {s t : List Char} (h : PairsNewlines s t) : PairsNewlines ('\n' :: s) ('\r' :: '\n' :: t)

def returnOf (c : Char) : Char :=
  if c = '\n' then '\r' else c

theorem unifyLines_of_pairsNewlines (h : PairsNewlines s t) (hs : '\r' ∉ s) : unifyLines t = s := by
  induction h with
  | nil => exact unifyLines_nil
  | keep c _ ih =>
    rw [List.mem_cons, not_or] at hs
    have hc : c ≠ '\r' := Ne.symm hs.1
    rw [unifyLines_cons fun h => absurd h hc, newlineOf_of_ne hc, ih hs.2]
  | pair _ ih =>
    rw [List.mem_cons, not_or] at hs
    rw [unifyLines_pair, ih hs.2]

theorem unifyLines_map_returnOf (hs : '\r' ∉ s) : unifyLines (s.map returnOf) = s := by
  have hnewline : '\n' ∉ s.map returnOf := by
    intro hmem
    obtain ⟨c, -, hc⟩ := List.mem_map.1 hmem
    unfold returnOf at hc
    split at hc
    · exact absurd hc (by decide)
    · next h => exact h hc
  induction s with
  | nil => exact unifyLines_nil
  | cons c s ih =>
    rw [List.mem_cons, not_or] at hs
    rw [List.map_cons, List.mem_cons, not_or] at hnewline
    have hc : newlineOf (returnOf c) = c := by
      unfold returnOf
      split
      · next h => rw [h, newlineOf, if_pos rfl]
      · exact newlineOf_of_ne (Ne.symm hs.1)
    have hhead : (s.map returnOf).head? ≠ some '\n' := fun h => hnewline.2 (List.mem_of_mem_head? h)
    rw [List.map_cons, unifyLines_cons fun _ => hhead, hc, ih hs.2 hnewline.2]

end Calculator.Normalization
