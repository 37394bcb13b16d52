import Calculator.Proofs.Encoding.Accepted
import Calculator.Proofs.Hashing.Encodings
import Calculator.Proofs.Hashing.Expected

/-!
# Which encoded inputs are accepted

An input in hexadecimal digits is accepted when it has digits only, an even number of them and one
at least; what it breaks first is told otherwise. An input in base64 is accepted when it is the
spelling of a byte sequence, so no sequence has two. Blanks around either do not count.
-/

namespace Calculator.HashSource

variable {text raw : String} {bytes : Bytes}

/-- What becomes of a text that is to be read as hexadecimal digits. -/
structure AnswersHex (field text : String) (outcome : Outcome HashSource) : Prop where
  accepted_iff : (∃ bytes, outcome = .ok (.bytes bytes)) ↔ IsHexText text ∧ text.length % 2 = 0
  accepted : ∀ source, outcome = .ok source →
    ∃ bytes, source = .bytes bytes ∧ Text.lower text = Hex.encodeText bytes
  notHex_iff : outcome = .error (.validation field .hex) ↔
    text = "" ∨ ∃ c ∈ text.toList, isLowerHexDigit c.toLower = false
  odd_iff : outcome = .error (.validation field .evenHex) ↔ IsHexText text ∧ text.length % 2 = 1

theorem not_isHexText_iff :
    ¬IsHexText text ↔ text = "" ∨ ∃ c ∈ text.toList, isLowerHexDigit c.toLower = false := by
  simp only [IsHexText, not_and_or, not_not, not_forall, Bool.not_eq_true, exists_prop]

theorem checksDigits_iff (text : String) :
    ((Text.encode text.toList).isEmpty || !(Text.encode text.toList).all Hex.isDigit) = false ↔
    IsHexText text := by
  have hempty : Text.encode text.toList = [] ↔ text = "" := by
    rw [← String.toList_eq_nil_iff]
    refine ⟨fun h => ?_, fun h => by rw [h, Text.encode_nil]⟩
    rw [← Text.decodeLossy_encode text.toList, h, Text.decodeLossy_nil]
  rw [Bool.or_eq_false_iff, Bool.not_eq_false', Hex.all_isDigit_encode_iff,
    List.isEmpty_eq_false_iff, ne_eq, hempty, IsHexText]

theorem ofHex_of_not_isHexText (h : ¬IsHexText text) (field : String) :
    ofHex field text = .error (.validation field .hex) := by
  rw [← checksDigits_iff, Bool.not_eq_false] at h
  simp only [ofHex, h, if_true]

theorem ofHex_of_odd (h : IsHexText text) (hodd : text.length % 2 = 1) (field : String) :
    ofHex field text = .error (.validation field .evenHex) := by
  have hlength : (Text.encode text.toList).length % 2 = 1 := by
    rw [Text.encode_of_ascii fun c hc => Hex.ascii_of_toLower (h.2 c hc),
      List.length_map, String.length_toList]
    exact hodd
  simp only [ofHex, (checksDigits_iff text).2 h, Hex.decode, hlength,
    if_true, Bool.false_eq_true, if_false]

theorem exists_bytes_of_even (h : IsHexText (Text.trim raw))
    (heven : (Text.trim raw).length % 2 = 0) (field : String) :
    ∃ bytes, ofHex field (Text.trim raw) = .ok (.bytes bytes) ∧
      Text.lower (Text.trim raw) = Hex.encodeText bytes := by
  obtain ⟨bytes, hspells⟩ := Hex.exists_spells h.2 (by rwa [String.length_toList])
  have hne : bytes ≠ [] := by
    rintro rfl
    exact h.1 (String.toList_eq_nil_iff.1 (List.map_eq_nil_iff.1 hspells))
  have hread := ofHex_of_spells hne hspells (Text.isPadded_toList _) field
  rw [Text.trim_trim] at hread
  refine ⟨bytes, hread, ?_⟩
  rw [Hex.encodeText, ← hspells, ← toList_lower h, String.ofList_toList]

theorem answersHex (field raw : String) :
    AnswersHex field (Text.trim raw) (ofHex field (Text.trim raw)) := by
  by_cases h : IsHexText (Text.trim raw)
  · have hother := mt not_isHexText_iff.2 (not_not.2 h)
    rcases Nat.mod_two_eq_zero_or_one (Text.trim raw).length with heven | hodd
    · obtain ⟨bytes, hread, hlower⟩ := exists_bytes_of_even h heven field
      constructor
      · simp [hread, h, heven]
      · simp [hread, hlower]
      · simp [hread, hother]
      · simp [hread, heven]
    · have hread := ofHex_of_odd h hodd field
      constructor
      · simp [hread, hodd]
      · simp [hread]
      · simp [hread, hother]
      · simp [hread, h, hodd]
  · have hread := ofHex_of_not_isHexText h field
    constructor
    · simp [hread, h]
    · simp [hread]
    · simp [hread, not_isHexText_iff.1 h]
    · simp [hread, h]

/-- What becomes of a text that is to be read as base64. -/
structure AnswersBase64 (field text : String) (outcome : Outcome HashSource) : Prop where
  accepted_iff : ∀ source, outcome = .ok source ↔ ∃ bytes, source = .bytes bytes ∧
    text.toList = Base64.encode bytes
  refused : (∀ bytes, text.toList ≠ Base64.encode bytes) →
    outcome = .error (.validation field .base64)

theorem base64_decode_iff :
    Base64.decode (Text.encode text.toList) = .ok bytes ↔ text.toList = Base64.encode bytes := by
  rw [Base64.decode_eq_ok_iff]
  constructor
  · intro h
    rw [← Text.decodeLossy_encode text.toList, h, Text.decodeLossy_encode]
  · exact congrArg Text.encode

theorem answersBase64 (field text : String) : AnswersBase64 field text (ofBase64 field text) := by
  unfold ofBase64
  cases hread : Base64.decode (Text.encode text.toList) with
  | ok bytes =>
    have hspelled := base64_decode_iff.1 hread
    constructor
    · intro source
      constructor
      · rintro ⟨⟩
        exact ⟨bytes, rfl, hspelled⟩
      · rintro ⟨bytes', rfl, hspelled'⟩
        rw [← base64_decode_iff, hread] at hspelled'
        cases hspelled'
        rfl
    · intro hnone
      exact absurd hspelled (hnone bytes)
  | error fault =>
    have hnone : ∀ bytes, text.toList ≠ Base64.encode bytes := by
      intro bytes hspelled
      rw [← base64_decode_iff, hread] at hspelled
      cases hspelled
    constructor
    · intro source
      simp [hnone]
    · exact fun _ => rfl

/-- Encoded inputs are accepted exactly when they spell bytes, and refused for the fault that they
have. -/
theorem ofInput_answers (settings : Settings) (tree : FileTree) (field : String) :
    (∀ raw, AnswersHex field (Text.trim raw) (ofInput settings tree field .hex raw)) ∧
    (∀ raw, AnswersBase64 field (Text.trim raw) (ofInput settings tree field .base64 raw)) ∧
    (∀ bytes raw, Text.IsPadded (Base64.encode bytes) raw →
      ofInput settings tree field .base64 raw = .ok (.bytes bytes)) ∧
    (∀ bytes digits raw, bytes ≠ [] → Hex.Spells bytes digits → Text.IsPadded digits raw →
      ofInput settings tree field .hex raw = .ok (.bytes bytes)) ∧
    Constraint.hex.message = "invalid hex encoded data" ∧
    Constraint.evenHex.message = "hex data must have an even length" := by
  refine ⟨fun raw => answersHex field raw, fun raw => answersBase64 field (Text.trim raw),
    ?_, ?_, rfl, rfl⟩
  · intro bytes raw hraw
    exact ofBase64_of_isPadded hraw field
  · intro bytes digits raw hne hspells hraw
    exact ofHex_of_spells hne hspells hraw field

example : ofInput .default .empty "input_data" .base64 "SGl=" =
    .error (.validation "input_data" .base64) := by
  rfl

end Calculator.HashSource
