import Calculator.Text.Utf8
import Mathlib

/-!
# Reading back encoded text

The bytes of a character are taken as that character, so the bytes of a text are read back as that
text.
-/

namespace Calculator.Text

theorem toNat_lt_of_char (c : Char) : c.toNat < 0x110000 := by
  have hvalid : c.toNat < 0xD800 ∨ 0xDFFF < c.toNat ∧ c.toNat < 0x110000 := c.valid
  omega

theorem toNat_char (code : Nat) (h : code < 0xD800 ∨ 0xDFFF < code ∧ code < 0x110000) :
    (Char.ofNat code).toNat = code := by
  rw [Char.toNat_ofNat, if_pos h]

theorem toNat_lead (n mark : Nat) (h : n + mark < 0x100) :
    (UInt8.ofNat (n + mark)).toNat = n + mark := by
  rw [UInt8.toNat_ofNat', Nat.mod_eq_of_lt h]

section EncodeChar

variable {c : Char}

theorem encodeChar_one (hmost : c.toNat < 0x80) :
    String.utf8EncodeChar c = [UInt8.ofNat c.toNat] := by
  have hval : c.val.toNat = c.toNat := rfl
  simp only [String.utf8EncodeChar, hval]
  rw [if_pos (by omega)]

theorem encodeChar_two (hleast : 0x80 ≤ c.toNat) (hmost : c.toNat < 0x800) :
    String.utf8EncodeChar c =
      [UInt8.ofNat (c.toNat / 64 % 0x20 + 0xC0), UInt8.ofNat (c.toNat % 0x40 + 0x80)] := by
  have hval : c.val.toNat = c.toNat := rfl
  simp only [String.utf8EncodeChar, hval]
  rw [if_neg (by omega), if_pos (by omega)]

theorem encodeChar_three (hleast : 0x800 ≤ c.toNat) (hmost : c.toNat < 0x10000) :
    String.utf8EncodeChar c =
      [UInt8.ofNat (c.toNat / 4096 % 0x10 + 0xE0), UInt8.ofNat (c.toNat / 64 % 0x40 + 0x80),
        UInt8.ofNat (c.toNat % 0x40 + 0x80)] := by
  have hval : c.val.toNat = c.toNat := rfl
  simp only [String.utf8EncodeChar, hval]
  rw [if_neg (by omega), if_neg (by omega), if_pos (by omega)]

theorem encodeChar_four (hleast : 0x10000 ≤ c.toNat) :
    String.utf8EncodeChar c =
      [UInt8.ofNat (c.toNat / 262144 % 0x08 + 0xF0), UInt8.ofNat (c.toNat / 4096 % 0x40 + 0x80),
        UInt8.ofNat (c.toNat / 64 % 0x40 + 0x80), UInt8.ofNat (c.toNat % 0x40 + 0x80)] := by
  have hval : c.val.toNat = c.toNat := rfl
  simp only [String.utf8EncodeChar, hval]
  rw [if_neg (by omega), if_neg (by omega), if_neg (by omega)]

end EncodeChar

section Taking

variable {ranges : List ByteRange} {lead : Lead} {b : UInt8} {taken : Bytes}

theorem contains_iff {range : ByteRange} :
    range.contains b = true ↔ range.least ≤ b.toNat ∧ b.toNat ≤ range.most := by
  simp [ByteRange.contains]

/-- Each byte lies in its range, and no byte or range is left over. -/
def Fits (ranges : List ByteRange) (taken : Bytes) : Prop :=
  List.Forall₂ (fun range b => range.contains b = true) ranges taken

theorem fitting_append (h : Fits ranges taken) (rest : Bytes) :
    fitting ranges (taken ++ rest) = taken := by
  induction h with
  | nil => cases rest <;> rfl
  | cons hb _ ih => simp only [List.cons_append, fitting, hb, if_true, ih]

theorem contains_continuation (n : Nat) :
    ByteRange.continuation.contains (UInt8.ofNat (n % 0x40 + 0x80)) = true := by
  rw [contains_iff, toNat_lead _ _ (by omega)]
  simp only [ByteRange.continuation]
  omega

theorem payload_continuation (n : Nat) :
    (UInt8.ofNat (n % 0x40 + 0x80)).toNat - 0x80 = n % 0x40 := by
  rw [toNat_lead _ _ (by omega), Nat.add_sub_cancel]

theorem ofByte?_eq_some_iff : Lead.ofByte? b = some lead ↔
    (b.toNat < 0x80 ∧ ⟨b.toNat, []⟩ = lead) ∨
    (0xC2 ≤ b.toNat ∧ b.toNat < 0xE0 ∧ ⟨b.toNat - 0xC0, [.second b]⟩ = lead) ∨
    (0xE0 ≤ b.toNat ∧ b.toNat < 0xF0 ∧ ⟨b.toNat - 0xE0, [.second b, .continuation]⟩ = lead) ∨
    (0xF0 ≤ b.toNat ∧ b.toNat < 0xF5 ∧
      ⟨b.toNat - 0xF0, [.second b, .continuation, .continuation]⟩ = lead) := by
  simp only [Lead.ofByte?]
  constructor
  · intro hlead
    split_ifs at hlead with hone hnone htwo hthree hfour
    · exact .inl ⟨hone, Option.some.inj hlead⟩
    · exact .inr (.inl ⟨by omega, htwo, Option.some.inj hlead⟩)
    · exact .inr (.inr (.inl ⟨by omega, hthree, Option.some.inj hlead⟩))
    · exact .inr (.inr (.inr ⟨by omega, hfour, Option.some.inj hlead⟩))
  · rintro (⟨hmost, rfl⟩ | ⟨hleast, hmost, rfl⟩ | ⟨hleast, hmost, rfl⟩ | ⟨hleast, hmost, rfl⟩)
    · rw [if_pos hmost]
    · rw [if_neg (by omega), if_neg (by omega), if_pos hmost]
    · rw [if_neg (by omega), if_neg (by omega), if_neg (by omega), if_pos hmost]
    · rw [if_neg (by omega), if_neg (by omega), if_neg (by omega), if_neg (by omega), if_pos hmost]

theorem contains_second_iff {x : UInt8} : (ByteRange.second b).contains x = true ↔
    (0x80 ≤ x.toNat ∧ x.toNat ≤ 0xBF) ∧ (b.toNat = 0xE0 → 0xA0 ≤ x.toNat) ∧
    (b.toNat = 0xED → x.toNat ≤ 0x9F) ∧
      (b.toNat = 0xF0 → 0x90 ≤ x.toNat) ∧ (b.toNat = 0xF4 → x.toNat ≤ 0x8F) := by
  simp only [ByteRange.second, ← UInt8.toNat_inj, UInt8.reduceToNat]
  split_ifs <;> rw [contains_iff] <;> simp only [ByteRange.continuation] <;> omega

theorem exists_lead (c : Char) : ∃ b lead taken, String.utf8EncodeChar c = b :: taken ∧
    Lead.ofByte? b = some lead ∧ Fits lead.followers taken ∧ lead.char taken = c := by
  have hvalid : c.toNat < 0xD800 ∨ 0xDFFF < c.toNat ∧ c.toNat < 0x110000 := c.valid
  by_cases hone : c.toNat < 0x80
  · have hlead : (UInt8.ofNat c.toNat).toNat = c.toNat := toNat_lead c.toNat 0 (by omega)
    refine ⟨_, _, _, encodeChar_one hone, ofByte?_eq_some_iff.2 (.inl ⟨by omega, rfl⟩), .nil, ?_⟩
    simp only [Lead.char, List.foldl, hlead, Char.ofNat_toNat]
  by_cases htwo : c.toNat < 0x800
  · have hlead := toNat_lead (c.toNat / 64 % 0x20) 0xC0 (by omega)
    have hcode : c.toNat / 64 % 0x20 * 64 + c.toNat % 0x40 = c.toNat := by omega
    refine ⟨_, _, _, encodeChar_two (by omega) htwo, ofByte?_eq_some_iff.2
      (.inr (.inl ⟨by omega, by omega, rfl⟩)), .cons (contains_second_iff.2 ?_) .nil, ?_⟩
    · rw [toNat_lead _ _ (by omega)]
      omega
    · simp only [Lead.char, List.foldl, payload_continuation, hlead,
        Nat.add_sub_cancel, hcode, Char.ofNat_toNat]
  by_cases hthree : c.toNat < 0x10000
  · have hlead := toNat_lead (c.toNat / 4096 % 0x10) 0xE0 (by omega)
    have hcode : (c.toNat / 4096 % 0x10 * 64 + c.toNat / 64 % 0x40) * 64 + c.toNat % 0x40 =
      c.toNat := by omega
    refine ⟨_, _, _, encodeChar_three (by omega) hthree,
      ofByte?_eq_some_iff.2 (.inr (.inr (.inl ⟨by omega, by omega, rfl⟩))),
      .cons (contains_second_iff.2 ?_) (.cons (contains_continuation _) .nil), ?_⟩
    · rw [toNat_lead _ _ (by omega)]
      omega
    · simp only [Lead.char, List.foldl, payload_continuation, hlead,
        Nat.add_sub_cancel, hcode, Char.ofNat_toNat]
  · have hlead := toNat_lead (c.toNat / 262144 % 0x08) 0xF0 (by omega)
    have hcode : ((c.toNat / 262144 % 0x08 * 64 + c.toNat / 4096 % 0x40) *
      64 + c.toNat / 64 % 0x40) * 64 +
        c.toNat % 0x40 = c.toNat := by omega
    refine ⟨_, _, _, encodeChar_four (by omega),
      ofByte?_eq_some_iff.2 (.inr (.inr (.inr ⟨by omega, by omega, rfl⟩))),
      .cons (contains_second_iff.2 ?_) (.cons (contains_continuation _)
        (.cons (contains_continuation _) .nil)), ?_⟩
    · rw [toNat_lead _ _ (by omega)]
      omega
    · simp only [Lead.char, List.foldl, payload_continuation, hlead,
        Nat.add_sub_cancel, hcode, Char.ofNat_toNat]

theorem exists_first {c : Char} (h : 0x80 ≤ c.toNat) :
    ∃ b taken, String.utf8EncodeChar c = b :: taken ∧ 0xC2 ≤ b.toNat := by
  obtain ⟨b, lead, taken, hbytes, hlead, hfits, hchar⟩ := exists_lead c
  refine ⟨b, taken, hbytes, ?_⟩
  obtain ⟨hmost, rfl⟩ | ⟨hleast, -⟩ | ⟨hleast, -⟩ | ⟨hleast, -⟩ := ofByte?_eq_some_iff.1 hlead
  · cases hfits
    have hcode : c.toNat = b.toNat := hchar ▸ toNat_char b.toNat (.inl (by omega))
    omega
  all_goals omega

theorem chunksAfter_eq (skip : Nat) (bytes : Bytes) :
    chunksAfter skip bytes = chunks (bytes.drop skip) := by
  induction bytes generalizing skip with
  | nil => cases skip <;> rfl
  | cons b bytes ih =>
    cases skip with
    | zero => rfl
    | succ skip => exact ih skip

theorem chunks_lead (hlead : Lead.ofByte? b = some lead) (hfits : Fits lead.followers taken)
    (rest : Bytes) :
    chunks (b :: taken ++ rest) = Chunk.prepend (lead.char taken) (chunks rest) := by
  simp only [List.cons_append, chunks, chunksAfter, hlead, fitting_append hfits]
  rw [if_pos hfits.length_eq.symm, chunksAfter_eq, List.drop_left, chunks]

theorem chunks_encodeChar_append (c : Char) (rest : Bytes) :
    chunks (String.utf8EncodeChar c ++ rest) = Chunk.prepend c (chunks rest) := by
  obtain ⟨b, lead, taken, hbytes, hlead, hfits, hchar⟩ := exists_lead c
  rw [hbytes, chunks_lead hlead hfits, hchar]

theorem flatMap_valid_prepend (c : Char) (chunks : List Chunk) :
    (Chunk.prepend c chunks).flatMap Chunk.valid = c :: chunks.flatMap Chunk.valid := by
  cases chunks <;> rfl

theorem decodeLossy_encodeChar_append (c : Char) (rest : Bytes) :
    decodeLossy (String.utf8EncodeChar c ++ rest) = c :: decodeLossy rest := by
  rw [decodeLossy, chunks_encodeChar_append, flatMap_valid_prepend, decodeLossy]

end Taking

theorem decodeLossy_encode (cs : List Char) : decodeLossy (encode cs) = cs := by
  induction cs with
  | nil => rfl
  | cons c cs ih => rw [encode_cons, decodeLossy_encodeChar_append, ih]

theorem decode?_eq_some_iff {bytes : Bytes} {cs : List Char} :
    decode? bytes = some cs ↔ bytes = encode cs := by
  constructor
  · intro h
    unfold decode? at h
    split at h
    · next hbytes => exact Option.some.inj h ▸ hbytes.symm
    · cases h
  · rintro rfl
    rw [decode?, decodeLossy_encode, if_pos rfl]

theorem length_encode (cs : List Char) : (encode cs).length = byteCount cs := by
  induction cs with
  | nil => rfl
  | cons c cs ih => rw [encode_cons, List.length_append, String.length_utf8EncodeChar,
      ih, byteCount_cons]

theorem byteCount_le_of_sublist {cs ds : List Char} (h : cs.Sublist ds) :
    byteCount cs ≤ byteCount ds := by
  induction h with
  | slnil => exact Nat.le_refl 0
  | cons c _ ih => exact Nat.le_add_left_of_le ih
  | cons_cons c _ ih => exact Nat.add_le_add_left ih _

theorem forall_char_of_forall_lt {bound : Nat} {P : Char → Prop}
    (h : ∀ n < bound, P (Char.ofNat n)) (c : Char) (hc : c.toNat < bound) : P c := by
  have hP := h c.toNat hc
  rwa [Char.ofNat_toNat] at hP

theorem encode_of_ascii {cs : List Char} (h : ∀ c ∈ cs, c.toNat < 0x80) :
    encode cs = cs.map fun c => UInt8.ofNat c.toNat := by
  induction cs with
  | nil => rfl
  | cons c cs ih =>
    rw [List.forall_mem_cons] at h
    rw [encode_cons, encodeChar_one h.1, ih h.2, List.map_cons, List.singleton_append]

end Calculator.Text
