import Calculator.Proofs.Text.Utf8
import Calculator.Text.Casing

/-!
# Small forms of ASCII words

The small form of a text is that of the whole character set. A word of small ASCII letters is the
small form of its own spellings in letters of any case and of no other text, unless it has a `k`,
which is also the small form of the sign of the kelvin.
-/

namespace Calculator.Text

variable {c d : Char} {s : String}

def isPlainLetter (d : Char) : Bool :=
  'a' ≤ d && d ≤ 'z' && d != 'k'

/-- Two texts that are the same but for the case of ASCII letters, where `word` is in small
letters. -/
def SpellsWord (s word : String) : Prop :=
  s.toList.map Char.toLower = word.toList

instance (s word : String) : Decidable (SpellsWord s word) :=
  inferInstanceAs (Decidable (s.toList.map Char.toLower = word.toList))

theorem lt_of_isPlainLetter (hd : isPlainLetter d = true) : d.toNat < 0x80 := by
  simp only [isPlainLetter, Bool.and_eq_true, decide_eq_true_eq] at hd
  have hz : d.toNat ≤ 'z'.toNat := hd.1.2
  exact Nat.lt_of_le_of_lt hz (by decide)

theorem toNat_ofNat (n : Nat) : (Char.ofNat n).toNat = n ∨ (Char.ofNat n).toNat = 0 := by
  unfold Char.ofNat
  split
  · exact .inl rfl
  · exact .inr rfl

theorem lowerRuns_cases : ∀ run ∈ lowerRuns,
    run.last < 0x80 ∨ run.first = 0x212A ∧ run.last = 0x212A ∧ run.shift = -8383 ∨
      (0x80 : Int) ≤ run.first + run.shift := by
  decide +kernel

theorem mapCase_ne_of_wide (hc : 0x80 ≤ c.toNat) (hd : isPlainLetter d = true) :
    mapCase lowerRuns c ≠ d := by
  have hlt := lt_of_isPlainLetter hd
  unfold mapCase
  split
  · next run hrun =>
    have hcontains := List.find?_some hrun
    simp only [CaseRun.contains, Bool.and_eq_true, decide_eq_true_eq] at hcontains
    obtain ⟨⟨hfirst, hlast⟩, -⟩ := hcontains
    rcases lowerRuns_cases run (List.mem_of_find?_eq_some hrun) with hascii | hkelvin | hwide
    · omega
    · obtain ⟨hfirst', hlast', hshift⟩ := hkelvin
      have hcode : c.toNat = 0x212A := by omega
      rw [hcode, hshift]
      rintro rfl
      exact absurd hd (by decide)
    · intro heq
      have hd' : 0 < d.toNat := by
        simp only [isPlainLetter, Bool.and_eq_true, decide_eq_true_eq] at hd
        exact Nat.lt_of_lt_of_le (by decide : 0 < 'a'.toNat) hd.1.1
      rcases toNat_ofNat (c.toNat + run.shift).toNat with hvalue | hvalue
      · rw [heq] at hvalue
        omega
      · rw [heq] at hvalue
        omega
  · rintro rfl
    omega

theorem toLower_of_wide (hc : 0x80 ≤ c.toNat) : c.toLower = c := by
  unfold Char.toLower
  rw [dif_neg]
  rintro ⟨-, hz⟩
  have hz' : c.toNat ≤ 'Z'.toNat := hz
  exact absurd (Nat.le_trans hc hz') (by decide)

theorem lowerChar_of_ascii (hc : c.toNat < 0x80) : lowerChar c = [c.toLower] :=
  forall_char_of_forall_lt (P := fun c => lowerChar c = [c.toLower]) (by decide +kernel) c hc

theorem lowerChar_cases (c : Char) : c = 'İ' ∨ ∃ d, lowerChar c = [d] ∧
    ∀ letter, isPlainLetter letter = true → (d = letter ↔ c.toLower = letter) := by
  by_cases hdotted : c = 'İ'
  · exact .inl hdotted
  refine .inr ?_
  rcases Nat.lt_or_ge c.toNat 0x80 with hascii | hwide
  · exact ⟨c.toLower, lowerChar_of_ascii hascii, fun _ _ => Iff.rfl⟩
  · refine ⟨mapCase lowerRuns c, by rw [lowerChar, if_neg hdotted], fun letter hletter => ?_⟩
    rw [toLower_of_wide hwide]
    refine iff_of_false (mapCase_ne_of_wide hwide hletter) ?_
    rintro rfl
    exact absurd (lt_of_isPlainLetter hletter) (Nat.not_lt.2 hwide)

theorem flatMap_lowerChar_eq_iff {cs word : List Char}
    (hword : ∀ d ∈ word, isPlainLetter d = true) :
    cs.flatMap lowerChar = word ↔ cs.map Char.toLower = word := by
  induction cs generalizing word with
  | nil => rfl
  | cons c cs ih =>
    rw [List.flatMap_cons, List.map_cons]
    rcases lowerChar_cases c with rfl | ⟨d, hd, hletter⟩
    · -- The small form of the dotted capital has a mark that is no letter, and the capital is no
      -- ASCII character itself.
      refine iff_of_false ?_ ?_
      · rintro rfl
        exact absurd (hword (Char.ofNat 0x307) (by simp [lowerChar])) (by decide)
      · rintro rfl
        exact absurd (hword _ List.mem_cons_self) (by decide)
    · rw [hd, List.singleton_append]
      cases word with
      | nil => simp
      | cons letter rest =>
        rw [List.cons_eq_cons, List.cons_eq_cons, hletter letter (hword letter List.mem_cons_self),
          ih fun d hd => hword d (List.mem_cons_of_mem letter hd)]

theorem lower_eq_iff {word : String} (hword : ∀ d ∈ word.toList, isPlainLetter d = true) :
    lower s = word ↔ SpellsWord s word := by
  rw [SpellsWord, ← flatMap_lowerChar_eq_iff hword, lower, ← String.toList_inj,
    String.toList_ofList]

end Calculator.Text
