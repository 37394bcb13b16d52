import Calculator.Normalization
import Mathlib.Data.List.Infix
import Mathlib.Data.List.SplitBy
import Mathlib.Data.List.TakeWhile

/-!
# Runs of equal characters

A text is a sequence of runs, each of one character and as long as possible. Cutting the runs of a
character leaves all other runs as they are and no run empty, so the runs of several characters may
be cut in any order, and no cut brings back a run that another cut has shortened.
-/

namespace Calculator.Normalization

variable {x y c : Char} {most seen n : Nat} {cs rest run : List Char}

/-- A text is empty, or a run of one character before a text that begins with another one. -/
theorem induction_on_runs {motive : List Char → Prop} (nil : motive [])
    (run : ∀ c n rest, rest.head? ≠ some c → motive rest →
      motive (List.replicate (n + 1) c ++ rest))
    (cs : List Char) : motive cs := by
  induction hlength : cs.length using Nat.strong_induction_on generalizing cs with
  | _ length ih =>
    cases cs with
    | nil => exact nil
    | cons c cs =>
      have hrun : cs.takeWhile (· == c) = List.replicate (cs.takeWhile (· == c)).length c := by
        refine List.eq_replicate_of_mem fun d hd => ?_
        simpa using List.mem_takeWhile_imp hd
      have hhead : (cs.dropWhile (· == c)).head? ≠ some c := by
        intro hc
        have hnot := List.head?_dropWhile_not (· == c) cs
        rw [hc] at hnot
        simp at hnot
      have hshort : (cs.dropWhile (· == c)).length < length := by
        have hle := (List.dropWhile_sublist (· == c) (l := cs)).length_le
        rw [← hlength, List.length_cons]
        omega
      have htext : c :: cs = List.replicate ((cs.takeWhile (· == c)).length + 1) c ++
          cs.dropWhile (· == c) := by
        rw [List.replicate_succ, ← hrun, List.cons_append, List.takeWhile_append_dropWhile]
      rw [htext]
      exact run c _ _ hhead (ih _ hshort _ rfl)

theorem splitBy_run (h : rest.head? ≠ some c) (n : Nat) :
    (List.replicate (n + 1) c ++ rest).splitBy (· == ·) =
      List.replicate (n + 1) c :: rest.splitBy (· == ·) := by
  have hchain : (List.replicate (n + 1) c).IsChain fun a b => (a == b) = true :=
    List.isChain_replicate_of_rel (n + 1) (beq_self_eq_true c)
  rw [List.splitBy_append, List.splitBy_of_isChain (by simp) hchain, List.singleton_append]
  intro a ha b hb
  obtain rfl : c = a := by simpa [List.getLast?_replicate] using ha
  refine beq_false_of_ne ?_
  rintro rfl
  exact h hb

theorem limitRuns_of_head? (h : cs.head? ≠ some x) :
    limitRuns x most seen cs = limitRuns x most 0 cs := by
  cases cs with
  | nil => rfl
  | cons c cs =>
    have hc : c ≠ x := fun hc => h (congrArg some hc)
    simp [limitRuns, hc]

theorem limitRuns_self (h : rest.head? ≠ some x) (most seen n : Nat) :
    limitRuns x most seen (List.replicate n x ++ rest) =
      List.replicate (min n (most - seen)) x ++ limitRuns x most 0 rest := by
  induction n generalizing seen with
  | zero => simpa using limitRuns_of_head? h
  | succ n ih =>
    rw [List.replicate_succ, List.cons_append, limitRuns, if_pos rfl]
    split
    · have hcount : min (n + 1) (most - seen) = min n (most - (seen + 1)) + 1 := by omega
      rw [ih, hcount, List.replicate_succ, List.cons_append]
    · have hcount : min (n + 1) (most - seen) = min n (most - seen) := by omega
      rw [ih, hcount]

theorem limitRuns_append (h : x ∉ run) (most : Nat) (rest : List Char) :
    limitRuns x most 0 (run ++ rest) = run ++ limitRuns x most 0 rest := by
  induction run with
  | nil => rfl
  | cons c run ih =>
    rw [List.mem_cons, not_or] at h
    rw [List.cons_append, limitRuns, if_neg (Ne.symm h.1), ih h.2, List.cons_append]

theorem limitRuns_other (h : c ≠ x) (most n : Nat) (rest : List Char) :
    limitRuns x most 0 (List.replicate n c ++ rest) = List.replicate n c ++
      limitRuns x most 0 rest :=
  limitRuns_append (fun hx => h (List.eq_of_mem_replicate hx).symm) most rest

theorem limitRuns_sublist (x : Char) (most seen : Nat) (cs : List Char) :
    (limitRuns x most seen cs).Sublist cs := by
  induction cs generalizing seen with
  | nil => exact .slnil
  | cons c cs ih =>
    unfold limitRuns
    split
    · split
      · exact (ih (seen + 1)).cons_cons c
      · exact (ih seen).cons c
    · exact (ih 0).cons_cons c

section Ends

variable (hmost : 0 < most)

include hmost

theorem head?_limitRuns (x : Char) (cs : List Char) : (limitRuns x most 0 cs).head? = cs.head? := by
  cases cs with
  | nil => rfl
  | cons c cs =>
    rw [limitRuns, if_pos hmost]
    split <;> rfl

theorem getLast?_limitRuns (x : Char) (cs : List Char) :
    (limitRuns x most 0 cs).getLast? = cs.getLast? := by
  induction cs using induction_on_runs with
  | nil => rfl
  | run c n rest hrest ih =>
    by_cases hc : c = x
    · subst hc
      have hcount : min (n + 1) (most - 0) ≠ 0 := by omega
      rw [limitRuns_self hrest, List.getLast?_append, ih, List.getLast?_append,
        List.getLast?_replicate,
        List.getLast?_replicate, if_neg hcount, if_neg (Nat.succ_ne_zero n)]
    · rw [limitRuns_other hc, List.getLast?_append, ih, List.getLast?_append]

theorem limitRuns_run (h : rest.head? ≠ some c) (least n : Nat) :
    limitRuns c least 0 (List.replicate n c ++ limitRuns x most 0 rest) =
      List.replicate (min n least) c ++ limitRuns c least 0 (limitRuns x most 0 rest) := by
  have hhead : (limitRuns x most 0 rest).head? ≠ some c := by rwa [head?_limitRuns hmost]
  exact limitRuns_self hhead least 0 n

theorem limitRuns_comm {least : Nat} (hleast : 0 < least) (hxy : x ≠ y) (cs : List Char) :
    limitRuns x most 0 (limitRuns y least 0 cs) = limitRuns y least 0 (limitRuns x most 0 cs) := by
  induction cs using induction_on_runs with
  | nil => rfl
  | run c n rest hrest ih =>
    by_cases hx : c = x
    · subst hx
      rw [limitRuns_other hxy, limitRuns_run hleast hrest, limitRuns_self hrest,
        limitRuns_other hxy, ih, Nat.sub_zero]
    by_cases hy : c = y
    · subst hy
      rw [limitRuns_other hx, limitRuns_run hmost hrest, limitRuns_self hrest,
        limitRuns_other hx, ih, Nat.sub_zero]
    · rw [limitRuns_other hy, limitRuns_other hx, limitRuns_other hx, limitRuns_other hy, ih]

end Ends

/-- No run is longer than it may be, and neither is a run that began with `seen` characters before
the text. -/
theorem not_long_limitRuns (hseen : seen ≤ most) (cs : List Char) :
    ¬List.replicate (most + 1 - seen) x <+: limitRuns x most seen cs ∧
      ¬List.replicate (most + 1) x <:+: limitRuns x most seen cs := by
  have hsplit :
      ∀ seen ≤ most, List.replicate (most + 1 - seen) x = x :: List.replicate (most - seen) x := by
    intro seen hseen
    rw [← List.replicate_succ, Nat.succ_sub hseen]
  have hwhole := hsplit 0 (Nat.zero_le most)
  rw [Nat.sub_zero, Nat.sub_zero] at hwhole
  induction cs generalizing seen with
  | nil =>
    rw [limitRuns, hsplit seen hseen, hwhole]
    simp
  | cons c cs ih =>
    unfold limitRuns
    split
    · next hc =>
      subst hc
      split
      · next hless =>
        obtain ⟨hbegins, hwithin⟩ := ih (Nat.succ_le_of_lt hless)
        have hnot :
            ¬List.replicate (most + 1 - seen) c <+: c :: limitRuns c most (seen + 1) cs := by
          rwa [hsplit seen hseen, List.prefix_cons_inj, ← Nat.add_sub_add_right most 1 seen]
        refine ⟨hnot, fun h => ?_⟩
        rcases List.infix_cons_iff.1 h with h | h
        · exact hnot ((List.prefix_replicate_iff.2 ⟨by simp, by simp⟩).trans h)
        · exact hwithin h
      · exact ih hseen
    · next hc =>
      rw [hsplit seen hseen, hwhole]
      refine ⟨fun h => hc (List.cons_prefix_cons.1 h).1.symm, fun h => ?_⟩
      rcases List.infix_cons_iff.1 h with h | h
      · exact hc (List.cons_prefix_cons.1 h).1.symm
      · exact (ih (Nat.zero_le most)).2 (hwhole ▸ h)

theorem limitRuns_of_not_long (hseen : seen ≤ most)
    (hbegins : ¬List.replicate (most + 1 - seen) x <+: cs)
    (hwithin : ¬List.replicate (most + 1) x <:+: cs) : limitRuns x most seen cs = cs := by
  induction cs generalizing seen with
  | nil => rfl
  | cons c cs ih =>
    have hrest : ¬List.replicate (most + 1) x <:+: cs := fun h => hwithin (List.infix_cons h)
    unfold limitRuns
    split
    · next hc =>
      subst hc
      by_cases hless : seen < most
      · have hcount : most + 1 - seen = most + 1 - (seen + 1) + 1 := by omega
        rw [hcount, List.replicate_succ, List.prefix_cons_inj] at hbegins
        rw [if_pos hless, ih (Nat.succ_le_of_lt hless) hbegins hrest]
      · have hcount : most + 1 - seen = 1 := by omega
        rw [hcount] at hbegins
        exact absurd (by simp) hbegins
    · rw [ih (Nat.zero_le most) (fun h => hrest h.isInfix) hrest]

theorem limitRuns_eq_self_iff :
    limitRuns x most 0 cs = cs ↔ ¬List.replicate (most + 1) x <:+: cs := by
  constructor
  · intro h
    rw [← h]
    exact (not_long_limitRuns (Nat.zero_le most) cs).2
  · intro h
    exact limitRuns_of_not_long (Nat.zero_le most) (fun hbegins => h hbegins.isInfix) h

end Calculator.Normalization
