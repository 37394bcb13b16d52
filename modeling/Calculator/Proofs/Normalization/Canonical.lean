import Calculator.Json.Sink
import Calculator.Proofs.Json.Visible
import Calculator.Proofs.Normalization.Json
import Calculator.Proofs.Text.Order

/-!
# The form of normalized documents

A normalized document is a canonical text, with keys in ascending order and nothing beyond visible
ASCII. Writing it cannot fail: the members are put in order, a buffer takes every chunk, and its
bytes are well-formed text, so the only documents without a normal form are those that are no JSON.
-/

namespace Calculator.Normalization

open Json

variable {v : Json} {text out : List Char} {failure : Failure}

/-- Normalizes step by step: the document is read, its members are put in order, its text is written
through a sink, and the bytes that were taken are read as text. -/
def normalizeThrough (sink : Sink) (text : List Char) : Outcome (List Char) :=
  match Json.parse text with
  | .error fault => .error (.malformed (.json text fault))
  | .ok v => do
    let bytes ← putValue sink .canonical v.sorted []
    match Text.decode? bytes with
    | some out => .ok out
    | Option.none => .error (.malformed (.stated "invalid utf-8 sequence"))

/-- No step behind the reading of the document fails. -/
theorem normalizeThrough_buffer (text : List Char) :
    normalizeThrough .buffer text = normalizeJson text := by
  unfold normalizeThrough normalizeJson
  cases hparse : Json.parse text with
  | error fault => rfl
  | ok v =>
    have hsorted : v.sorted = v := sorted_eq_self v (isRead_of_parse hparse).ascendingKeys
    have htext : Text.decode? (Text.encode (v.write .canonical)) = some (v.write .canonical) :=
      Text.decode?_eq_some_iff.2 rfl
    simp only [bind, Except.bind, hsorted, putValue_buffer, List.nil_append, htext]

theorem normalizeJson_eq_error_iff :
    normalizeJson text = .error failure ↔
      ∃ fault, Json.parse text = .error fault ∧ failure = .malformed (.json text fault) := by
  unfold normalizeJson
  cases Json.parse text with
  | error fault => simp [eq_comm]
  | ok _ => simp

theorem rendersCanonically_of_normalizeJson (h : normalizeJson text = .ok out) :
    ∃ v, Json.parse text = .ok v ∧ AscendingKeys v ∧ RendersCanonically v out := by
  obtain ⟨v, hparse, rfl⟩ := normalizeJson_eq_ok_iff.1 h
  have hread := isRead_of_parse hparse
  exact ⟨v, hparse, hread.ascendingKeys, rendersCanonically_write v hread.finiteFloats
    hread.ascendingKeys⟩

theorem ascending_encoded_keys {ms : List (String × Json)} (h : Ascending ms) :
    (ms.map fun m => Text.encode m.1.toList).Pairwise (· < ·) := by
  rw [List.pairwise_map]
  exact (List.pairwise_map.1 h).imp fun hlt => Text.encode_lt_encode_iff.2 hlt

/-- A normalized document is a canonical text in visible ASCII whose keys ascend, as texts and as
bytes. Exactly the documents that cannot be read have none. -/
theorem normalizeJson_canonical (text : List Char) :
    (∀ out, normalizeJson text = .ok out →
      (∀ b ∈ Text.encode out, 0x20 ≤ b.toNat ∧ b.toNat ≤ 0x7f) ∧
      (∀ c ∈ outsideStrings .outside out, Text.isBlank c = false) ∧
      ∃ v, Json.parse text = .ok v ∧ RendersCanonically v out ∧
        ∀ ms, PartOf (.object ms) v → (ms.map (·.1)).Nodup ∧ (ms.map (·.1)).Pairwise (· < ·) ∧
          (ms.map fun m => Text.encode m.1.toList).Pairwise (· < ·)) ∧
    (∀ failure, normalizeJson text = .error failure ↔
      ∃ fault, Json.parse text = .error fault ∧ failure = .malformed (.json text fault)) ∧
    normalizeThrough .buffer text = normalizeJson text := by
  refine ⟨fun out h => ?_, fun failure => normalizeJson_eq_error_iff, normalizeThrough_buffer text⟩
  obtain ⟨v, hparse, hkeys, hcanonical⟩ := rendersCanonically_of_normalizeJson h
  refine ⟨hcanonical.isVisible.encode_bounds, fun c => hcanonical.isVisible.isBlank_outside,
    v, hparse, hcanonical, fun ms hms => ?_⟩
  have hascending := hkeys ms hms
  exact ⟨hascending.nodup_keys, hascending, ascending_encoded_keys hascending⟩

end Calculator.Normalization
