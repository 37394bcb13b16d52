import Calculator.Digest.Algorithm
import Calculator.Proofs.Encoding.Hex
import Calculator.Proofs.Text.Trim

/-!
# Comparing digests

Hexadecimal digits of either case with blanks around them are accepted as an expected digest, and
they match a calculated one when both are the same but for the case of letters. Every algorithm
writes its digests in digits that are accepted.
-/

namespace Calculator

def IsHexText (s : String) : Prop :=
  s ≠ "" ∧ ∀ c ∈ s.toList, isLowerHexDigit c.toLower = true

variable {c : Char} {s given digest : String}

theorem toLower_of_isLowerHexDigit (h : isLowerHexDigit c = true) : c.toLower = c :=
  Text.forall_char_of_forall_lt (P := fun c => isLowerHexDigit c = true → c.toLower = c)
    (by decide +kernel) c (Hex.ascii_of_isLowerHexDigit h) h

theorem lowerChar_of_toLower (h : isLowerHexDigit c.toLower = true) :
    Text.lowerChar c = [c.toLower] :=
  Text.forall_char_of_forall_lt (P := fun c => isLowerHexDigit c.toLower = true →
    Text.lowerChar c = [c.toLower]) (by decide +kernel) c (Hex.ascii_of_toLower h) h

theorem toList_lower (h : IsHexText s) : (Text.lower s).toList = s.toList.map Char.toLower := by
  rw [Text.lower, String.toList_ofList, List.map_eq_flatMap]
  apply List.flatMap_congr
  intro c hc
  exact lowerChar_of_toLower (h.2 c hc)

theorem IsHexText.noBlank (h : IsHexText s) : ∀ c ∈ s.toList, Text.isBlank c = false :=
  fun c hc => Hex.isBlank_of_toLower (h.2 c hc)

theorem IsHexText.lower (h : IsHexText s) : IsHexText (Text.lower s) := by
  refine ⟨fun hempty => ?_, ?_⟩
  · have hnil := toList_lower h
    rw [hempty, String.toList_empty] at hnil
    exact h.1 (String.toList_eq_nil_iff.1 (List.map_eq_nil_iff.1 hnil.symm))
  · rw [toList_lower h]
    intro d hd
    obtain ⟨c, hc, rfl⟩ := List.mem_map.1 hd
    rw [toLower_of_isLowerHexDigit (h.2 c hc)]
    exact h.2 c hc

theorem isLowerHexDigit_of_mem_hexDigest {a : Algorithm} {message : Bytes}
    (h : c ∈ (a.hexDigest message).toList) : isLowerHexDigit c = true := by
  rw [Algorithm.hexDigest, Hex.encodeText, String.toList_ofList] at h
  exact Hex.isLowerHexDigit_of_mem_encode h

theorem isHexText_hexDigest (a : Algorithm) (message : Bytes) :
    IsHexText (a.hexDigest message) := by
  refine ⟨fun hempty => ?_, fun c hc => ?_⟩
  · have hlength : (a.hexDigest message).toList.length = 2 * a.size := by
      rw [Algorithm.hexDigest, Hex.encodeText, String.toList_ofList,
        Hex.length_encode, Algorithm.length_digest]
    have hsize : 0 < a.size := by cases a <;> decide
    rw [hempty, String.toList_empty, List.length_nil] at hlength
    omega
  · have hdigit := isLowerHexDigit_of_mem_hexDigest hc
    rwa [toLower_of_isLowerHexDigit hdigit]

end Calculator
