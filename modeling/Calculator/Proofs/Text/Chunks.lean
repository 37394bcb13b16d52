import Calculator.Proofs.Text.Utf8

/-!
# What lenient reading keeps

A character that breaks off is passed over at once, up to the byte at which it does. No character
begins in the midst of it, so a scan that passes over one byte wherever no character begins comes to
the same place: it keeps exactly what the chunks keep. A text is kept whole, also with bytes between
its characters that occur in no character.
-/

namespace Calculator.Text

variable {b x : UInt8} {c : Char} {cs : List Char} {lead : Lead} {ranges : List ByteRange}
  {taken rest bytes : Bytes}

theorem ofNat_eq {n : Nat} (h : n = b.toNat) : UInt8.ofNat n = b := by
  rw [h, UInt8.ofNat_toNat]

theorem continuation_contains_iff :
    ByteRange.continuation.contains b = true ↔ 0x80 ≤ b.toNat ∧ b.toNat ≤ 0xBF :=
  contains_iff

theorem encodeChar_char (hlead : Lead.ofByte? b = some lead) (hfits : Fits lead.followers taken) :
    String.utf8EncodeChar (lead.char taken) = b :: taken := by
  obtain ⟨hmost, rfl⟩ | ⟨hleast, hmost, rfl⟩ | ⟨hleast, hmost, rfl⟩ | ⟨hleast, hmost, rfl⟩ :=
    ofByte?_eq_some_iff.1 hlead
  · cases hfits
    have hcode := toNat_char b.toNat (by omega)
    simp only [Lead.char, List.foldl]
    rw [encodeChar_one (by omega), hcode, UInt8.ofNat_toNat]
  · obtain _ | ⟨hx, _ | _⟩ := hfits
    rename_i x
    rw [contains_second_iff] at hx
    have hcode := toNat_char ((b.toNat - 0xC0) * 64 + (x.toNat - 0x80)) (by omega)
    simp only [Lead.char, List.foldl]
    rw [encodeChar_two (by omega) (by omega), hcode, ofNat_eq (b := b) (by omega),
      ofNat_eq (b := x) (by omega)]
  · obtain _ | ⟨hx, _ | ⟨hy, _ | _⟩⟩ := hfits
    rename_i x y
    rw [contains_second_iff] at hx
    rw [continuation_contains_iff] at hy
    have hcode := toNat_char (((b.toNat - 0xE0) * 64 + (x.toNat - 0x80)) * 64 + (y.toNat - 0x80))
      (by omega)
    simp only [Lead.char, List.foldl]
    rw [encodeChar_three (by omega) (by omega), hcode, ofNat_eq (b := b) (by omega),
      ofNat_eq (b := x) (by omega), ofNat_eq (b := y) (by omega)]
  · obtain _ | ⟨hx, _ | ⟨hy, _ | ⟨hz, _ | _⟩⟩⟩ := hfits
    rename_i x y z
    rw [contains_second_iff] at hx
    rw [continuation_contains_iff] at hy hz
    have hcode := toNat_char
      ((((b.toNat - 0xF0) * 64 + (x.toNat - 0x80)) * 64 + (y.toNat - 0x80)) * 64 +
      (z.toNat - 0x80)) (by omega)
    simp only [Lead.char, List.foldl]
    rw [encodeChar_four (by omega), hcode, ofNat_eq (b := b) (by omega),
      ofNat_eq (b := x) (by omega), ofNat_eq (b := y) (by omega), ofNat_eq (b := z) (by omega)]

theorem length_lt_encodeChar_append (c : Char) (after : Bytes) :
    after.length < (String.utf8EncodeChar c ++ after).length := by
  have hpos := Char.utf8Size_pos c
  rw [List.length_append, String.length_utf8EncodeChar]
  omega

theorem fitting_append_drop (ranges : List ByteRange) (bytes : Bytes) :
    fitting ranges bytes ++ bytes.drop (fitting ranges bytes).length = bytes := by
  fun_induction fitting ranges bytes with
  | case1 range ranges b bytes hb ih => exact congrArg (b :: ·) ih
  | case2 range ranges b bytes hb => rfl
  | case3 ranges bytes => rfl

theorem fits_fitting (h : (fitting ranges bytes).length = ranges.length) :
    Fits ranges (fitting ranges bytes) := by
  fun_induction fitting ranges bytes with
  | case1 range ranges b bytes hb ih => exact .cons hb (ih (Nat.succ.inj h))
  | case2 range ranges b bytes hb => cases h
  | case3 ranges bytes =>
    obtain rfl : ranges = [] := List.length_eq_zero_iff.1 h.symm
    exact .nil

theorem exists_range_of_mem_fitting (hx : x ∈ fitting ranges bytes) :
    ∃ range ∈ ranges, range.contains x = true := by
  fun_induction fitting ranges bytes with
  | case1 range ranges b bytes hb ih =>
    rcases List.mem_cons.1 hx with rfl | hx
    · exact ⟨range, List.mem_cons_self, hb⟩
    · obtain ⟨later, hlater, hcontains⟩ := ih hx
      exact ⟨later, List.mem_cons_of_mem range hlater, hcontains⟩
  | case2 range ranges b bytes hb => cases hx
  | case3 ranges bytes => cases hx

theorem continuation_of_mem_followers (hlead : Lead.ofByte? b = some lead) {range : ByteRange}
    (hrange : range ∈ lead.followers) (hx : range.contains x = true) :
      ByteRange.continuation.contains x = true := by
  have hsecond :
      (ByteRange.second b).contains x = true → ByteRange.continuation.contains x = true := fun h =>
    continuation_contains_iff.2 (contains_second_iff.1 h).1
  obtain ⟨-, rfl⟩ | ⟨-, -, rfl⟩ | ⟨-, -, rfl⟩ | ⟨-, -, rfl⟩ := ofByte?_eq_some_iff.1 hlead
  all_goals simp only [List.mem_cons, List.not_mem_nil, or_false] at hrange
  · exact hsecond (hrange ▸ hx)
  · rcases hrange with rfl | rfl
    · exact hsecond hx
    · exact hx
  · rcases hrange with rfl | rfl | rfl
    · exact hsecond hx
    · exact hx
    · exact hx

theorem ofByte?_of_continuation (h : ByteRange.continuation.contains b = true) :
    Lead.ofByte? b = none := by
  rw [continuation_contains_iff] at h
  simp only [Lead.ofByte?]
  rw [if_neg (by omega), if_pos (by omega)]

theorem chunks_of_no_lead (h : Lead.ofByte? b = none) (rest : Bytes) :
    chunks (b :: rest) = ⟨[], [b]⟩ :: chunks rest := by
  simp only [chunks, chunksAfter, h]

theorem chunks_of_broken (hlead : Lead.ofByte? b = some lead)
    (hbroken : (fitting lead.followers rest).length ≠ lead.followers.length) :
    chunks (b :: rest) =
      ⟨[], b :: fitting lead.followers rest⟩ ::
        chunks (rest.drop (fitting lead.followers rest).length) := by
  rw [← chunksAfter_eq]
  simp only [chunks, chunksAfter, hlead]
  rw [if_neg hbroken]

/-- Bytes begin with a character, or with bytes that are passed over at once: a byte, and
continuation bytes. -/
theorem chunks_cases (b : UInt8) (rest : Bytes) :
    (∃ c after, b :: rest = String.utf8EncodeChar c ++ after ∧
      chunks (b :: rest) = Chunk.prepend c (chunks after)) ∨
    (∃ taken after, rest = taken ++ after ∧
      (∀ x ∈ taken, ByteRange.continuation.contains x = true) ∧
      chunks (b :: rest) = ⟨[], b :: taken⟩ :: chunks after) := by
  cases hlead : Lead.ofByte? b with
  | none => exact .inr ⟨[], rest, rfl, by simp, chunks_of_no_lead hlead rest⟩
  | some lead =>
    have hrest := fitting_append_drop lead.followers rest
    by_cases hall : (fitting lead.followers rest).length = lead.followers.length
    · have hfits := fits_fitting hall
      refine .inl ⟨lead.char (fitting lead.followers rest),
        rest.drop (fitting lead.followers rest).length, ?_, ?_⟩
      · rw [encodeChar_char hlead hfits, List.cons_append, hrest]
      · conv_lhs => rw [← hrest]
        exact chunks_lead hlead hfits _
    · refine .inr ⟨fitting lead.followers rest, _, hrest.symm, fun x hx => ?_,
        chunks_of_broken hlead hall⟩
      obtain ⟨range, hrange, hcontains⟩ := exists_range_of_mem_fitting hx
      exact continuation_of_mem_followers hlead hrange hcontains

example : chunks [0x61, 0xE2, 0x82, 0x62, 0xED, 0xA0] =
    [⟨['a'], [0xE2, 0x82]⟩, ⟨['b'], [0xED]⟩, ⟨[], [0xA0]⟩] := by decide

theorem decodeLossy_continuation_append (h : ∀ x ∈ taken, ByteRange.continuation.contains x = true)
    (rest : Bytes) :
    decodeLossy (taken ++ rest) = decodeLossy rest := by
  induction taken with
  | nil => rfl
  | cons x taken ih =>
    rw [List.forall_mem_cons] at h
    rw [List.cons_append, decodeLossy, chunks_of_no_lead (ofByte?_of_continuation h.1)]
    exact ih h.2

theorem decodeLossy_of_not_begins (h : ∀ c, ¬String.utf8EncodeChar c <+: b :: rest) :
    decodeLossy (b :: rest) = decodeLossy rest := by
  obtain ⟨c, after, hbytes, -⟩ | ⟨taken, after, rfl, hcontinuation, hchunks⟩ := chunks_cases b rest
  · exact absurd ⟨after, hbytes.symm⟩ (h c)
  · rw [decodeLossy_continuation_append hcontinuation, decodeLossy, hchunks]
    rfl

/-- The scan that keeps a character wherever one begins, and passes over one byte elsewhere. A
character has one spelling, the shortest; surrogates and numbers above `0x10FFFF` are no characters
and have none. -/
inductive Scans : Bytes → List Char → Prop
  | done : Scans [] []
  | keep (c : Char) {rest : Bytes} {cs : List Char} (h : Scans rest cs) :
      Scans (String.utf8EncodeChar c ++ rest) (c :: cs)
  | pass (b : UInt8) {rest : Bytes} {cs : List Char}
      (hnone : ∀ c, ¬String.utf8EncodeChar c <+: b :: rest)
      (h : Scans rest cs) : Scans (b :: rest) cs

theorem decodeLossy_of_scans (h : Scans bytes cs) : decodeLossy bytes = cs := by
  induction h with
  | done => rfl
  | keep c _ ih => rw [decodeLossy_encodeChar_append, ih]
  | pass b hnone _ ih => rw [decodeLossy_of_not_begins hnone, ih]

theorem exists_scans (bytes : Bytes) : ∃ cs, Scans bytes cs := by
  induction hlength : bytes.length using Nat.strong_induction_on generalizing bytes with
  | _ n ih =>
    cases bytes with
    | nil => exact ⟨[], .done⟩
    | cons b rest =>
      by_cases hbegins : ∃ c, String.utf8EncodeChar c <+: b :: rest
      · obtain ⟨c, after, hbytes⟩ := hbegins
        have hshorter : after.length < n := by
          rw [← hlength, ← hbytes]
          exact length_lt_encodeChar_append c after
        obtain ⟨cs, hscans⟩ := ih after.length hshorter after rfl
        exact ⟨c :: cs, hbytes ▸ .keep c hscans⟩
      · obtain ⟨cs, hscans⟩ := ih rest.length (by rw [← hlength]; exact Nat.lt_succ_self _) rest rfl
        exact ⟨cs, .pass b (not_exists.1 hbegins) hscans⟩

theorem decodeLossy_eq_iff_scans : decodeLossy bytes = cs ↔ Scans bytes cs := by
  constructor
  · rintro rfl
    obtain ⟨cs, hscans⟩ := exists_scans bytes
    exact (decodeLossy_of_scans hscans).symm ▸ hscans
  · exact decodeLossy_of_scans

def IsStray (b : UInt8) : Prop :=
  b = 0xC0 ∨ b = 0xC1 ∨ 0xF5 ≤ b

instance : DecidablePred IsStray := fun b =>
  inferInstanceAs (Decidable (b = 0xC0 ∨ b = 0xC1 ∨ 0xF5 ≤ b))

theorem isStray_iff_toNat : IsStray b ↔ b.toNat = 0xC0 ∨ b.toNat = 0xC1 ∨ 0xF5 ≤ b.toNat := by
  simp only [IsStray, ← UInt8.toNat_inj, UInt8.le_iff_toNat_le, UInt8.reduceToNat]

theorem ofByte?_eq_none_iff :
    Lead.ofByte? b = none ↔ ByteRange.continuation.contains b = true ∨ IsStray b := by
  have hmost := b.toNat_lt
  rw [continuation_contains_iff, isStray_iff_toNat]
  simp only [Lead.ofByte?]
  split_ifs <;> simp <;> omega

theorem exists_fits (hlead : Lead.ofByte? b = some lead) : ∃ taken, Fits lead.followers taken := by
  have hlast : ByteRange.continuation.contains 0x80 = true := by decide
  obtain ⟨x, hx⟩ : ∃ x, (ByteRange.second b).contains x = true := by
    unfold ByteRange.second
    split_ifs
    · exact ⟨0xA0, by decide⟩
    · exact ⟨0x80, by decide⟩
    · exact ⟨0x90, by decide⟩
    · exact ⟨0x80, by decide⟩
    · exact ⟨0x80, by decide⟩
  obtain ⟨-, rfl⟩ | ⟨-, -, rfl⟩ | ⟨-, -, rfl⟩ | ⟨-, -, rfl⟩ := ofByte?_eq_some_iff.1 hlead
  · exact ⟨[], .nil⟩
  · exact ⟨[x], .cons hx .nil⟩
  · exact ⟨[x, 0x80], .cons hx (.cons hlast .nil)⟩
  · exact ⟨[x, 0x80, 0x80], .cons hx (.cons hlast (.cons hlast .nil))⟩

theorem mem_encodeChar_cases (h : x ∈ String.utf8EncodeChar c) :
    (∃ lead, Lead.ofByte? x = some lead) ∨ ByteRange.continuation.contains x = true := by
  obtain ⟨b, lead, taken, hbytes, hlead, hfits, -⟩ := exists_lead c
  rw [hbytes] at h
  rcases List.mem_cons.1 h with rfl | hx
  · exact .inl ⟨lead, hlead⟩
  · rw [← fitting_append hfits []] at hx
    obtain ⟨range, hrange, hcontains⟩ := exists_range_of_mem_fitting hx
    exact .inr (continuation_of_mem_followers hlead hrange hcontains)

theorem isStray_iff : IsStray b ↔ ∀ c, b ∉ String.utf8EncodeChar c := by
  constructor
  · intro hstray c hmem
    rcases mem_encodeChar_cases hmem with ⟨lead, hlead⟩ | hcontinuation
    · rw [ofByte?_eq_none_iff.2 (.inr hstray)] at hlead
      cases hlead
    · rw [continuation_contains_iff] at hcontinuation
      rw [isStray_iff_toNat] at hstray
      omega
  · intro hnone
    cases hlead : Lead.ofByte? b with
    | some lead =>
      obtain ⟨taken, hfits⟩ := exists_fits hlead
      exact absurd (encodeChar_char hlead hfits ▸ List.mem_cons_self) (hnone (lead.char taken))
    | none =>
      rcases ofByte?_eq_none_iff.1 hlead with hcontinuation | hstray
      · -- After the first byte 0xC2 any continuation byte completes a character.
        have hfirst : Lead.ofByte? 0xC2 = some ⟨0x02, [.continuation]⟩ := by decide
        have hmem : b ∈ String.utf8EncodeChar (Lead.char ⟨0x02, [.continuation]⟩ [b]) := by
          rw [encodeChar_char hfirst (.cons hcontinuation .nil)]
          exact List.mem_cons_of_mem 0xC2 List.mem_cons_self
        exact absurd hmem (hnone _)
      · exact hstray

/-- The bytes of a text with stray bytes before, between and behind its characters. -/
inductive Scattered : List Char → Bytes → Prop
  | done : Scattered [] []
  | char (c : Char) {cs : List Char} {bytes : Bytes} (h : Scattered cs bytes) :
      Scattered (c :: cs) (String.utf8EncodeChar c ++ bytes)
  | stray {b : UInt8} (hb : IsStray b) {cs : List Char} {bytes : Bytes} (h : Scattered cs bytes) :
      Scattered cs (b :: bytes)

theorem decodeLossy_of_scattered (h : Scattered cs bytes) : decodeLossy bytes = cs := by
  induction h with
  | done => rfl
  | char c _ ih => rw [decodeLossy_encodeChar_append, ih]
  | stray hb _ ih =>
    rw [decodeLossy, chunks_of_no_lead (ofByte?_eq_none_iff.2 (.inr hb))]
    exact ih

theorem encode_decodeLossy_eq_iff :
    encode (decodeLossy bytes) = bytes ↔ bytes.toByteArray.IsValidUTF8 := by
  constructor
  · intro h
    exact .intro (decodeLossy bytes) (congrArg List.toByteArray h.symm)
  · rintro ⟨cs, hbytes⟩
    have hencode : bytes = encode cs := List.toByteArray_inj.1 hbytes
    rw [hencode, decodeLossy_encode]

/-- Lenient reading is the scan that keeps the characters and passes over single bytes elsewhere. So
well-formed bytes are kept as they are, and a text is read as itself, also where bytes that occur in
no character stand between its characters. -/
theorem decodeLossy_keeps_characters (bytes : Bytes) (cs : List Char) :
    (decodeLossy bytes = cs ↔ Scans bytes cs) ∧
    (encode (decodeLossy bytes) = bytes ↔ bytes.toByteArray.IsValidUTF8) ∧
    decodeLossy (encode cs) = cs ∧
    (∀ b, IsStray b ↔ ∀ c, b ∉ String.utf8EncodeChar c) ∧
    (Scattered cs bytes → decodeLossy bytes = decodeLossy (encode cs)) := by
  refine ⟨decodeLossy_eq_iff_scans, encode_decodeLossy_eq_iff, decodeLossy_encode cs,
    fun b => isStray_iff, ?_⟩
  intro hscattered
  rw [decodeLossy_of_scattered hscattered, decodeLossy_encode]

def scatteredSigns : Bytes :=
  [0xFF, 0xC3, 0xA9, 0xC0, 0xC1, 0xE2, 0x82, 0xAC, 0xF5]

theorem decodeLossy_keeps_characters_scattered :
    Scattered ['é', '€'] scatteredSigns ∧
    decodeLossy scatteredSigns = decodeLossy (encode ['é', '€']) ∧
    decodeLossy scatteredSigns = ['é', '€'] := by
  have hscattered : Scattered ['é', '€'] scatteredSigns :=
    .stray (by decide)
      (.char 'é' (.stray (by decide) (.stray (by decide) (.char '€' (.stray (by decide) .done)))))
  obtain ⟨-, -, htext, -, hstrays⟩ := decodeLossy_keeps_characters scatteredSigns ['é', '€']
  exact ⟨hscattered, hstrays hscattered, (hstrays hscattered).trans htext⟩

end Calculator.Text
