import Calculator.Proofs.Text.Trim
import Calculator.Proofs.Text.Utf8
import Calculator.Settings.Environment

/-!
# Values of variables

A variable that stands for a number is read when it is written in decimal digits, and every number
is read back from its digits. A variable that stands for a path becomes one that begins with a slash
and has more to it; such a path stays as it is.
-/

namespace Calculator

open Text (IsTrimmed)

variable {bound n : Nat} {s path : String} {default : UInt16}

/-- A natural number in decimal digits, with or without a plus sign. -/
def WritesNat (n : Nat) (s : String) : Prop :=
  ∃ digits : List Char, digits ≠ [] ∧ (∀ c ∈ digits, c.isDigit = true) ∧
    (s.toList = digits ∨ s.toList = '+' :: digits) ∧ Nat.ofDigitChars 10 digits 0 = n

theorem writesNat_toString (n : Nat) : WritesNat n (toString n) := by
  have hdigits : (toString n).toList = Nat.toDigits 10 n := by
    rw [Nat.toString_eq_ofList_toDigits, String.toList_ofList]
  exact ⟨Nat.toDigits 10 n, List.ne_nil_of_length_pos Nat.length_toDigits_pos,
    fun _ hc => Nat.isDigit_of_mem_toDigits (by decide) (by decide) hc,
    .inl hdigits, Nat.ofDigitChars_ten_toDigits⟩

namespace Environment

theorem foldl_digits (digits : List Char) :
    digits.foldl (fun n c => n * 10 + (c.toNat - '0'.toNat)) 0 = Nat.ofDigitChars 10 digits 0 := by
  rw [Nat.ofDigitChars_eq_foldl]
  congr 1
  funext n c
  rw [Nat.mul_comm]

def withoutPlus : List Char → List Char
  | '+' :: rest => rest
  | cs => cs

theorem eq_withoutPlus_or (cs : List Char) : cs = withoutPlus cs ∨ cs = '+' :: withoutPlus cs := by
  unfold withoutPlus
  split
  · exact .inr rfl
  · exact .inl rfl

theorem readNat?_eq (bound : Nat) (s : String) : readNat? bound s =
    if (withoutPlus s.toList).isEmpty || !(withoutPlus s.toList).all Char.isDigit then none
    else if Nat.ofDigitChars 10 (withoutPlus s.toList) 0 < bound then
      some (Nat.ofDigitChars 10 (withoutPlus s.toList) 0)
    else none := by
  rw [← foldl_digits]
  rfl

theorem writesNat_iff :
    WritesNat n s ↔ (withoutPlus s.toList ≠ [] ∧ ∀ c ∈ withoutPlus s.toList, c.isDigit = true) ∧
      Nat.ofDigitChars 10 (withoutPlus s.toList) 0 = n := by
  constructor
  · rintro ⟨digits, hne, hdigits, hs, hvalue⟩
    have hsame : withoutPlus s.toList = digits := by
      rcases hs with hs | hs
      · rw [hs]
        unfold withoutPlus
        split
        · next rest => exact absurd (hdigits '+' List.mem_cons_self) (by decide)
        · rfl
      · rw [hs, withoutPlus]
    rw [hsame]
    exact ⟨⟨hne, hdigits⟩, hvalue⟩
  · rintro ⟨⟨hne, hdigits⟩, hvalue⟩
    exact ⟨_, hne, hdigits, eq_withoutPlus_or s.toList, hvalue⟩

theorem readNat?_eq_some_iff : readNat? bound s = some n ↔ WritesNat n s ∧ n < bound := by
  have hrefused : ((withoutPlus s.toList).isEmpty || !(withoutPlus s.toList).all Char.isDigit) =
    true ↔
      ¬(withoutPlus s.toList ≠ [] ∧ ∀ c ∈ withoutPlus s.toList, c.isDigit = true) := by
    rw [Bool.or_eq_true, not_and_or]
    simp
  rw [readNat?_eq, writesNat_iff]
  split
  · next h => simp [hrefused.1 h]
  · next h =>
    rw [hrefused, not_not] at h
    rw [and_iff_right h]
    split
    · next hlt =>
      rw [Option.some_inj, iff_self_and]
      rintro rfl
      exact hlt
    · next hge =>
      refine iff_of_false (nomatch ·) ?_
      rintro ⟨rfl, hlt⟩
      exact hge hlt

theorem readPort_of_writesNat (h : WritesNat n (Text.trim s)) (hn : n < UInt16.size) :
    readPort s default = UInt16.ofNat n := by
  rw [readPort, readNat?_eq_some_iff.2 ⟨h, hn⟩]

theorem readPort_of_not_writesNat (h : ∀ n < UInt16.size, ¬WritesNat n (Text.trim s)) :
    readPort s default = default := by
  have hnone : readNat? UInt16.size (Text.trim s) = none := by
    rw [Option.eq_none_iff_forall_ne_some]
    intro n hn
    exact h n (readNat?_eq_some_iff.1 hn).2 (readNat?_eq_some_iff.1 hn).1
  rw [readPort, hnone]

theorem isBlank_of_isDigit {c : Char} (h : c.isDigit = true) : Text.isBlank c = false := by
  have hascii : c.toNat < 0x80 := by
    simp only [Char.isDigit, Bool.and_eq_true, decide_eq_true_eq] at h
    have hnine : c.toNat ≤ '9'.toNat := h.2
    exact Nat.lt_of_le_of_lt hnine (by decide)
  exact Text.forall_char_of_forall_lt (P := fun c => c.isDigit = true → Text.isBlank c = false)
    (by decide +kernel) c
    hascii h

theorem readPort_toString (port default : UInt16) :
    readPort (toString port.toNat) default = port := by
  have hblank : ∀ c ∈ (toString port.toNat).toList, Text.isBlank c = false := by
    intro c hc
    rw [Nat.toString_eq_ofList_toDigits, String.toList_ofList] at hc
    exact isBlank_of_isDigit (Nat.isDigit_of_mem_toDigits (by decide) (by decide) hc)
  have htrim : Text.trim (toString port.toNat) = toString port.toNat := by
    rw [Text.trim, Text.trimChars_of_noBlank hblank, String.ofList_toList]
  have hwrites : WritesNat port.toNat (Text.trim (toString port.toNat)) := by
    rw [htrim]
    exact writesNat_toString port.toNat
  have hlt : port.toNat < UInt16.size := port.toNat_lt
  rw [readPort_of_writesNat hwrites hlt, UInt16.ofNat_toNat]

end Environment

/-- A path that begins with a slash and has more to it, and no blanks around it. -/
structure IsRpcPath (path : String) : Prop where
  trimmed : Text.trim path = path
  slash : path.toList.head? = some '/'
  more : path ≠ "/"

namespace Environment

theorem rpcPath_of_isRpcPath (h : IsRpcPath path) : rpcPath path = path := by
  have hne : path ≠ "" := by
    rintro rfl
    exact nomatch h.slash
  simp only [rpcPath, h.trimmed, hne, h.more, or_self, if_false, h.slash, if_true]

theorem isRpcPath_default : IsRpcPath Transport.defaultRpcPath :=
  ⟨by decide, by decide, by decide⟩

theorem isRpcPath_rpcPath (s : String) : IsRpcPath (rpcPath s) := by
  have htrimmed : IsTrimmed (Text.trim s).toList := by
    rw [Text.trim, String.toList_ofList]
    exact Text.isTrimmed_trimChars s.toList
  simp only [rpcPath]
  split
  · exact isRpcPath_default
  next hmore =>
  rw [not_or] at hmore
  split
  · next hslash => exact ⟨Text.trim_trim s, hslash, hmore.2⟩
  · have hlist : ("/" ++ Text.trim s).toList = '/' :: (Text.trim s).toList := String.toList_append
    have hne : (Text.trim s).toList ≠ [] := fun hnil => hmore.1 (String.toList_eq_nil_iff.1 hnil)
    have hpadded : IsTrimmed ('/' :: (Text.trim s).toList) := by
      constructor
      · intro c hc
        obtain rfl : '/' = c := Option.some.inj hc
        decide
      · intro c hc
        rw [List.getLast?_cons_of_ne_nil hne] at hc
        exact htrimmed.last c hc
    refine ⟨?_, ?_, ?_⟩
    · rw [Text.trim, hlist, Text.trimChars_of_isTrimmed hpadded, ← hlist, String.ofList_toList]
    · rw [hlist]
      rfl
    · intro hbare
      rw [hbare] at hlist
      exact hne (List.cons_eq_cons.1 hlist).2.symm

end Environment

end Calculator
