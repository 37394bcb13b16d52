import Calculator.Encoding.Hex
import Calculator.Hashing.Expected
import Calculator.Proofs.Text.Utf8

/-!
# Reading back hexadecimal text

The digits of a byte sequence, in letters of either case, are read back as that sequence. They are
small letters and decimal digits as they are written, and none of them is blank.
-/

namespace Calculator.Hex

def Spells (bytes : Bytes) (digits : List Char) : Prop :=
  digits.map Char.toLower = encode bytes

instance (bytes : Bytes) (digits : List Char) : Decidable (Spells bytes digits) :=
  inferInstanceAs (Decidable (_ = _))

variable {bytes : Bytes} {digits : List Char} {c : Char} {n : Nat}

theorem isLowerHexDigit_digitChar (h : n < 16) : isLowerHexDigit (digitChar n) = true := by
  revert n
  decide +kernel

theorem ascii_of_isLowerHexDigit (h : isLowerHexDigit c = true) : c.toNat < 0x80 := by
  simp only [isLowerHexDigit, Char.isDigit, Bool.or_eq_true, Bool.and_eq_true,
    decide_eq_true_eq, Char.le_def, ge_iff_le, UInt32.le_iff_toNat_le] at h
  have hval : c.toNat = c.val.toNat := rfl
  have h9 : '9'.val.toNat = 0x39 := rfl
  have hf : 'f'.val.toNat = 0x66 := rfl
  omega

theorem ascii_of_toLower (h : isLowerHexDigit c.toLower = true) : c.toNat < 0x80 := by
  by_cases hupper : c.val ≥ 'A'.val ∧ c.val ≤ 'Z'.val
  · have hle : c.toNat ≤ 'Z'.toNat := UInt32.le_iff_toNat_le.1 hupper.2
    exact Nat.lt_of_le_of_lt hle (by decide)
  · rw [Char.toLower, dif_neg hupper] at h
    exact ascii_of_isLowerHexDigit h

theorem digitValue?_of_toLower (hn : n < 16) (h : c.toLower = digitChar n) :
    digitValue? (UInt8.ofNat c.toNat) = some n :=
  Text.forall_char_of_forall_lt
    (P := fun c => ∀ n < 16, c.toLower = digitChar n → digitValue? (UInt8.ofNat c.toNat) = some n)
    (by decide +kernel) c (ascii_of_toLower (h ▸ isLowerHexDigit_digitChar hn)) n hn h

theorem isDigit_of_toLower (h : isLowerHexDigit c.toLower = true) :
    isDigit (UInt8.ofNat c.toNat) = true :=
  Text.forall_char_of_forall_lt
    (P := fun c => isLowerHexDigit c.toLower = true → isDigit (UInt8.ofNat c.toNat) = true)
    (by decide +kernel) c (ascii_of_toLower h) h

theorem isBlank_of_toLower (h : isLowerHexDigit c.toLower = true) : Text.isBlank c = false :=
  Text.forall_char_of_forall_lt (P := fun c => isLowerHexDigit c.toLower = true →
    Text.isBlank c = false) (by decide +kernel) c (ascii_of_toLower h) h

theorem isLowerHexDigit_of_mem_encode (h : c ∈ encode bytes) : isLowerHexDigit c = true := by
  obtain ⟨b, -, hc⟩ := List.mem_flatMap.1 h
  have hlt := b.toNat_lt
  rcases List.mem_pair.1 hc with rfl | rfl
  · exact isLowerHexDigit_digitChar (by omega)
  · exact isLowerHexDigit_digitChar (by omega)

theorem Spells.isLowerHexDigit (h : Spells bytes digits) (hc : c ∈ digits) :
    isLowerHexDigit c.toLower = true :=
  isLowerHexDigit_of_mem_encode (h ▸ List.mem_map_of_mem hc)

theorem Spells.length (h : Spells bytes digits) : digits.length = 2 * bytes.length := by
  rw [← length_encode, ← h, List.length_map]

theorem decodePairs_digits (h : Spells bytes digits) (index : Nat) :
    decodePairs index (digits.map fun c => UInt8.ofNat c.toNat) = .ok bytes := by
  unfold Spells at h
  induction bytes generalizing digits index with
  | nil =>
    obtain rfl : digits = [] := List.map_eq_nil_iff.1 h
    rfl
  | cons b bytes ih =>
    rw [encode_cons, encodeByte, List.cons_append, List.cons_append, List.nil_append] at h
    obtain ⟨x, front, rfl, hx, h⟩ := List.map_eq_cons_iff.1 h
    obtain ⟨y, rest, rfl, hy, hrest⟩ := List.map_eq_cons_iff.1 h
    have hlt := b.toNat_lt
    have hhigh := digitValue?_of_toLower (by omega) hx
    have hlow := digitValue?_of_toLower (Nat.mod_lt _ (by decide)) hy
    have hbyte : UInt8.ofNat (b.toNat / 16 * 16 + b.toNat % 16) = b := by
      rw [Nat.div_add_mod', UInt8.ofNat_toNat]
    simp only [List.map_cons, decodePairs, digitAt, hhigh, hlow, ih hrest,
      bind, Except.bind, pure, Except.pure, hbyte]

theorem decode_of_spells (h : Spells bytes digits) : decode (Text.encode digits) = .ok bytes := by
  have hascii : ∀ c ∈ digits, c.toNat < 0x80 := fun c hc => ascii_of_toLower (h.isLowerHexDigit hc)
  have hlength := h.length
  rw [Text.encode_of_ascii hascii, decode, List.length_map, if_neg (by omega)]
  exact decodePairs_digits h 0

end Calculator.Hex
