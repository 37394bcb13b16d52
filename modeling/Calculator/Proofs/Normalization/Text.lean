import Calculator.Hashing.Outcome
import Calculator.Proofs.Normalization.Lines
import Calculator.Proofs.Normalization.Runs
import Calculator.Proofs.Text.Utf8

/-!
# Normal forms of text

The normal form of a text is the trimmed text with newlines for all line endings and with its long
runs of newlines and of spaces cut. A text is its own normal form if nothing is left to do, and a
normal form is one of these texts. Texts that differ only in how their lines end have one normal
form, and one digest.
-/

namespace Calculator.Normalization

open Text

variable {cs s t : List Char}

/-- A run of one character: of three newlines or more two are left, and of two spaces or more
one. -/
def collapsedRun (run : List Char) : List Char :=
  if run.head? = some '\n' ∧ 3 ≤ run.length then ['\n', '\n']
  else if run.head? = some ' ' ∧ 2 ≤ run.length then [' ']
  else run

def collapsedRuns (cs : List Char) : List Char :=
  (cs.splitBy (· == ·)).flatMap collapsedRun

theorem collapsedRuns_run {c : Char} {rest : List Char} (h : rest.head? ≠ some c) (n : Nat) :
    collapsedRuns (List.replicate (n + 1) c ++ rest) =
      collapsedRun (List.replicate (n + 1) c) ++ collapsedRuns rest := by
  rw [collapsedRuns, splitBy_run h, List.flatMap_cons, collapsedRuns]

theorem collapsedRun_replicate (c : Char) (n : Nat) :
    collapsedRun (List.replicate (n + 1) c) =
      if c = '\n' ∧ 2 ≤ n then ['\n', '\n'] else if c = ' ' ∧ 1 ≤ n then
        [' '] else List.replicate (n + 1) c := by
  have hhead : (List.replicate (n + 1) c).head? = some c := rfl
  simp [collapsedRun, hhead]

theorem collapsedRun_newlines (n : Nat) :
    collapsedRun (List.replicate (n + 1) '\n') = List.replicate (min (n + 1) 2) '\n' := by
  rw [collapsedRun_replicate]
  by_cases hn : 2 ≤ n
  · have hcount : min (n + 1) 2 = 2 := by omega
    rw [if_pos ⟨rfl, hn⟩, hcount]
    rfl
  · have hcount : min (n + 1) 2 = n + 1 := by omega
    rw [if_neg fun h => hn h.2, if_neg fun h => absurd h.1 (by decide), hcount]

theorem collapsedRun_spaces (n : Nat) :
    collapsedRun (List.replicate (n + 1) ' ') = List.replicate (min (n + 1) 1) ' ' := by
  have hcount : min (n + 1) 1 = 1 := by omega
  rw [collapsedRun_replicate, if_neg fun h => absurd h.1 (by decide), hcount]
  by_cases hn : 1 ≤ n
  · rw [if_pos ⟨rfl, hn⟩]
    rfl
  · have hzero : n = 0 := by omega
    rw [if_neg fun h => hn h.2, hzero]

theorem collapsedRun_other {c : Char} (hnewline : c ≠ '\n') (hspace : c ≠ ' ') (n : Nat) :
    collapsedRun (List.replicate (n + 1) c) = List.replicate (n + 1) c := by
  rw [collapsedRun_replicate, if_neg fun h => hnewline h.1, if_neg fun h => hspace h.1]

/-- Cutting the runs of newlines and then those of spaces cuts every run for itself. -/
theorem limitRuns_eq_collapsedRuns (cs : List Char) :
    limitRuns ' ' 1 0 (limitRuns '\n' 2 0 cs) = collapsedRuns cs := by
  induction cs using induction_on_runs with
  | nil => rfl
  | run c n rest hrest ih =>
    rw [collapsedRuns_run hrest]
    by_cases hnewline : c = '\n'
    · subst hnewline
      rw [limitRuns_self hrest, limitRuns_other (by decide), ih,
        collapsedRun_newlines, Nat.sub_zero]
    rw [limitRuns_other hnewline]
    by_cases hspace : c = ' '
    · subst hspace
      rw [limitRuns_run (by decide) hrest, ih, collapsedRun_spaces]
    · rw [limitRuns_other hspace, ih, collapsedRun_other hnewline hspace]

structure IsTextForm (cs : List Char) : Prop where
  trimmed : IsTrimmed cs
  noReturn : '\r' ∉ cs
  noBlankLines : ¬['\n', '\n', '\n'] <:+: cs
  noDoubleSpace : ¬[' ', ' '] <:+: cs

theorem normalizeText_eq (cs : List Char) :
    normalizeText cs = limitRuns '\n' 2 0 (limitRuns ' ' 1 0 (unifyLines (trimChars cs))) :=
  limitRuns_comm (by decide) (by decide) (by decide) _

theorem isTrimmed_normalizeText (cs : List Char) : IsTrimmed (normalizeText cs) := by
  have hunified : IsTrimmed (unifyLines (trimChars cs)) :=
    trimChars_unifyLines cs ▸ isTrimmed_trimChars _
  constructor
  · rw [normalizeText, head?_limitRuns (by decide), head?_limitRuns (by decide)]
    exact hunified.head
  · rw [normalizeText, getLast?_limitRuns (by decide), getLast?_limitRuns (by decide)]
    exact hunified.last

theorem isTextForm_normalizeText (cs : List Char) : IsTextForm (normalizeText cs) where
  trimmed := isTrimmed_normalizeText cs
  noReturn := by
    intro hreturn
    have hmem := (limitRuns_sublist '\n' 2 0 _).subset
      ((limitRuns_sublist ' ' 1 0 _).subset hreturn)
    exact return_notMem_unifyLines _ hmem
  noBlankLines := by
    rw [normalizeText_eq]
    exact (not_long_limitRuns (Nat.zero_le 2) _).2
  noDoubleSpace := (not_long_limitRuns (Nat.zero_le 1) _).2

theorem normalizeText_of_isTextForm (h : IsTextForm cs) : normalizeText cs = cs := by
  have hlines : limitRuns '\n' 2 0 cs = cs := limitRuns_eq_self_iff.2 h.noBlankLines
  have hspaces : limitRuns ' ' 1 0 cs = cs := limitRuns_eq_self_iff.2 h.noDoubleSpace
  rw [normalizeText, trimChars_of_isTrimmed h.trimmed, unifyLines_of_notMem h.noReturn,
    hlines, hspaces]

theorem normalizeText_eq_self_iff : normalizeText cs = cs ↔ IsTextForm cs :=
  ⟨fun h => h ▸ isTextForm_normalizeText cs, normalizeText_of_isTextForm⟩

theorem length_encode_normalizeText_le (cs : List Char) :
    (encode (normalizeText cs)).length ≤ (encode cs).length := by
  have htrimmed : (trimChars cs).Sublist cs := by
    obtain ⟨before, after, htext, -⟩ := exists_blanks cs
    rw [List.append_assoc] at htext
    conv_rhs => rw [htext]
    exact (List.sublist_append_left _ after).trans (List.sublist_append_right before _)
  rw [length_encode, length_encode]
  calc byteCount (normalizeText cs)
      ≤ byteCount (limitRuns '\n' 2 0 (unifyLines (trimChars cs))) :=
        byteCount_le_of_sublist (limitRuns_sublist ' ' 1 0 _)
    _ ≤ byteCount (unifyLines (trimChars cs)) :=
      byteCount_le_of_sublist (limitRuns_sublist '\n' 2 0 _)
    _ ≤ byteCount (trimChars cs) := byteCount_unifyLines_le _
    _ ≤ byteCount cs := byteCount_le_of_sublist htrimmed

/-- The normal form of a text is the trimmed text with unified line endings and every run cut for
itself. It is no longer than the text, nothing is left to do in it, and it is its own normal form,
as exactly such texts are. -/
theorem normalizeText_collapses (cs : List Char) :
    (∃ before trimmed after, cs = before ++ trimmed ++ after ∧
      (∀ c ∈ before ++ after, isBlank c = true) ∧
      IsTrimmed trimmed ∧
      normalizeText cs = collapsedRuns (replaceAll ['\r'] ['\n']
        (replaceAll ['\r', '\n'] ['\n'] trimmed))) ∧
    IsTextForm (normalizeText cs) ∧
    (encode (normalizeText cs)).length ≤ (encode cs).length ∧
    (normalizeText cs = cs ↔ IsTextForm cs) ∧
    normalizeText (normalizeText cs) = normalizeText cs := by
  refine ⟨?_, isTextForm_normalizeText cs, length_encode_normalizeText_le cs,
    normalizeText_eq_self_iff, normalizeText_of_isTextForm (isTextForm_normalizeText cs)⟩
  obtain ⟨before, after, htext, hblank⟩ := exists_blanks cs
  refine ⟨before, trimChars cs, after, htext, hblank, isTrimmed_trimChars cs, ?_⟩
  rw [normalizeText, limitRuns_eq_collapsedRuns, unifyLines_eq_replaceAll]

example : normalizeText " \ta \r\n\r\r\n\nb   c\r".toList = "a \n\nb c".toList := by decide

theorem normalizeText_congr (h : unifyLines s = unifyLines t) :
    normalizeText s = normalizeText t := by
  rw [normalizeText, normalizeText, ← trimChars_unifyLines, ← trimChars_unifyLines, h]

/-- Texts with the lines of `s`: with some of its newlines as pairs, or with all of them as carriage
returns. -/
inductive HasLinesOf (s : List Char) : List Char → Prop
  | pairs {t : List Char} (h : PairsNewlines s t) : HasLinesOf s t
  | returns : HasLinesOf s (s.map returnOf)

theorem normalizeText_of_hasLinesOf (hs : '\r' ∉ s) (ht : HasLinesOf s t) :
    normalizeText t = normalizeText s := by
  apply normalizeText_congr
  rw [unifyLines_of_notMem hs]
  cases ht with
  | pairs h => exact unifyLines_of_pairsNewlines h hs
  | returns => exact unifyLines_map_returnOf hs

theorem digest_text {tree : FileTree} {source : HashSource} (algorithm : Algorithm)
    (hread : source.read tree = .ok (encode t)) :
    HashOutcome.digest <$> source.hash tree algorithm .text =
      .ok (algorithm.hexDigest (encode (normalizeText t))) := by
  simp only [HashSource.hash, hread, apply, decodeLossy_encode, bind,
    Except.bind, pure, Except.pure, Functor.map, Except.map]

/-- The normal form of a text does not depend on how its lines end, and neither does its digest. -/
theorem digest_of_hasLinesOf (hs : '\r' ∉ s) (ht : HasLinesOf s t) :
    normalizeText t = normalizeText s ∧
      ∀ (tree : FileTree) (algorithm : Algorithm) (source : HashSource),
        source.read tree = .ok (encode s) ∨ source.read tree = .ok (encode t) →
          HashOutcome.digest <$> source.hash tree algorithm .text =
            .ok (algorithm.hexDigest (encode (normalizeText s))) := by
  have hform := normalizeText_of_hasLinesOf hs ht
  refine ⟨hform, fun tree algorithm source hread => ?_⟩
  rcases hread with hread | hread
  · exact digest_text algorithm hread
  · rw [digest_text algorithm hread, hform]

def spacedLines : List Char :=
  "\nx\n\n\ny\n".toList

def spacedLinesPaired : List Char :=
  "\r\nx\n\r\n\r\ny\n".toList

def spacedLinesReturned : List Char :=
  "\rx\r\r\ry\r".toList

theorem digest_of_hasLinesOf_spacedLines :
    '\r' ∉ spacedLines ∧ HasLinesOf spacedLines spacedLinesPaired ∧
    HasLinesOf spacedLines spacedLinesReturned ∧
      normalizeText spacedLines = "x\n\ny".toList ∧
      normalizeText spacedLinesPaired = "x\n\ny".toList ∧
      normalizeText spacedLinesReturned = "x\n\ny".toList ∧
      HashOutcome.digest <$> (HashSource.bytes (encode spacedLinesPaired)).hash
        .empty .crc32 .text =
        .ok (Algorithm.crc32.hexDigest (encode (normalizeText spacedLines))) := by
  have hreturn : '\r' ∉ spacedLines := by decide
  have hpaired : HasLinesOf spacedLines spacedLinesPaired :=
    .pairs (.pair (.keep 'x' (.keep '\n' (.pair (.pair (.keep 'y' (.keep '\n' .nil)))))))
  have hreturned : HasLinesOf spacedLines spacedLinesReturned := .returns
  have hform : normalizeText spacedLines = "x\n\ny".toList := by decide
  obtain ⟨hformPaired, hdigest⟩ := digest_of_hasLinesOf hreturn hpaired
  obtain ⟨hformReturned, -⟩ := digest_of_hasLinesOf hreturn hreturned
  exact ⟨hreturn, hpaired, hreturned, hform, hformPaired.trans hform, hformReturned.trans hform,
    hdigest .empty .crc32 (.bytes (encode spacedLinesPaired)) (.inr rfl)⟩

end Calculator.Normalization
