import Calculator.Proofs.Encoding.Base64
import Calculator.Proofs.Encoding.Hex
import Calculator.Proofs.Outcome

/-!
# Which texts are read

A text of hexadecimal digits is read when it has an even number of them, and every such text spells
some byte sequence. Base64 leaves no choice: a text is read only if it is the spelling of what is
read, with all of its padding and no bit set that the last symbol has to spare.
-/

namespace Calculator

namespace Hex

variable {digits : List Char} {c : Char}

theorem exists_digitChar (h : isLowerHexDigit c.toLower = true) :
    ∃ n < 16, c.toLower = digitChar n :=
  Text.forall_char_of_forall_lt (P := fun c => isLowerHexDigit c.toLower = true →
    ∃ n < 16, c.toLower = digitChar n) (by decide +kernel) c (ascii_of_toLower h) h

theorem ascii_of_isDigit (h : ∀ b ∈ String.utf8EncodeChar c, isDigit b = true) :
    c.toNat < 0x80 := by
  by_contra hlarge
  obtain ⟨b, taken, hbytes, hleast⟩ := Text.exists_first (Nat.le_of_not_lt hlarge)
  have hfirst : ∀ n, 0xC2 ≤ n → n < 0x100 → isDigit (UInt8.ofNat n) = false := by decide +kernel
  have hdigit := h b (by rw [hbytes]; exact List.mem_cons_self)
  rw [← UInt8.ofNat_toNat (x := b), hfirst b.toNat hleast b.toNat_lt] at hdigit
  cases hdigit

theorem isDigit_of_ascii (h : c.toNat < 0x80) :
    isDigit (UInt8.ofNat c.toNat) = isLowerHexDigit c.toLower :=
  Text.forall_char_of_forall_lt (P := fun c => isDigit (UInt8.ofNat c.toNat) =
    isLowerHexDigit c.toLower) (by decide +kernel) c h

theorem all_isDigit_encode_iff :
    (Text.encode digits).all isDigit = true ↔ ∀ c ∈ digits, isLowerHexDigit c.toLower = true := by
  constructor
  · intro h c hc
    rw [List.all_eq_true] at h
    have hbytes : ∀ b ∈ String.utf8EncodeChar c, isDigit b = true :=
      fun b hb => h b (List.mem_flatMap.2 ⟨c, hc, hb⟩)
    have hascii := ascii_of_isDigit hbytes
    rw [← isDigit_of_ascii hascii]
    apply hbytes
    rw [Text.encodeChar_one hascii]
    exact List.mem_singleton_self _
  · intro h
    rw [Text.encode_of_ascii fun c hc => ascii_of_toLower (h c hc), List.all_map, List.all_eq_true]
    exact fun c hc => isDigit_of_toLower (h c hc)

theorem exists_spells (hdigits : ∀ c ∈ digits, isLowerHexDigit c.toLower = true)
    (heven : digits.length % 2 = 0) :
    ∃ bytes, Spells bytes digits := by
  induction digits using List.twoStepInduction with
  | nil => exact ⟨[], rfl⟩
  | singleton c => exact absurd heven (by simp)
  | cons_cons x y rest ih _ =>
    rw [List.forall_mem_cons, List.forall_mem_cons] at hdigits
    obtain ⟨high, hhigh, hx⟩ := exists_digitChar hdigits.1
    obtain ⟨low, hlow, hy⟩ := exists_digitChar hdigits.2.1
    obtain ⟨bytes, hrest⟩ := ih hdigits.2.2 (by simp only [List.length_cons] at heven; omega)
    have hbyte : (UInt8.ofNat (high * 16 + low)).toNat = high * 16 + low := by
      rw [UInt8.toNat_ofNat', Nat.mod_eq_of_lt (by omega)]
    have hquotient : (high * 16 + low) / 16 = high := by omega
    have hremainder : (high * 16 + low) % 16 = low := by omega
    refine ⟨UInt8.ofNat (high * 16 + low) :: bytes, ?_⟩
    rw [Spells, encode_cons, encodeByte, hbyte, hquotient, hremainder, ← hx, ← hy, ← hrest]
    rfl

end Hex

namespace Base64

variable {n fill offset : Nat} {ns last : List Nat} {b : UInt8} {text bytes : Bytes}

theorem eq_code_of_symbolValue? (h : symbolValue? b = some n) : n < 64 ∧ b = code n := by
  have hbytes : ∀ m < 256, ∀ n ∈ symbolValue? (UInt8.ofNat m), n < 64 ∧ UInt8.ofNat m = code n := by
    decide +kernel
  have hb := hbytes b.toNat b.toNat_lt n
  rw [UInt8.ofNat_toNat] at hb
  exact hb h

theorem eq_code_of_symbolValues (h : symbolValues offset text = .ok ns) :
    (∀ n ∈ ns, n < 64) ∧ text = ns.map code := by
  induction text generalizing offset ns with
  | nil =>
    cases h
    exact ⟨nofun, rfl⟩
  | cons b rest ih =>
    obtain ⟨n, hn, h⟩ := bind_eq_ok_iff.1 h
    obtain ⟨ms, hms, h⟩ := bind_eq_ok_iff.1 h
    cases h
    obtain ⟨hlt, rfl⟩ := ih hms
    unfold symbolAt at hn
    split at hn
    · next m hm =>
      cases hn
      obtain ⟨hn, rfl⟩ := eq_code_of_symbolValue? hm
      exact ⟨List.forall_mem_cons.2 ⟨hn, hlt⟩, rfl⟩
    · cases hn

/-- The sextets of a last group, which padding fills up to four symbols. -/
structure IsLast (fill : Nat) (ns : List Nat) : Prop where
  lt : ∀ n ∈ ns, n < 64
  two_le : 2 ≤ ns.length
  four : (ns.length + fill) % 4 = 0
  spare : hasSpareBits ns = false

theorem isLast_of_decodeLast {group : Bytes} (h : decodeLast offset group = .ok ns) :
    ∃ fill, IsLast fill ns ∧ group = ns.map code ++ List.replicate fill padding := by
  obtain ⟨sextets, hsextets, h⟩ := bind_eq_ok_iff.1 h
  obtain ⟨hlt, hsymbols⟩ := eq_code_of_symbolValues hsextets
  have hlength : (group.takeWhile (· != padding)).length = sextets.length := by
    rw [hsymbols, List.length_map]
  simp only [hlength] at h
  split at h
  · cases h
  next hfill =>
  split at h
  · cases h
  next htwo =>
  split at h
  · cases h
  next hfour =>
  split at h
  · cases h
  next hspare =>
  cases h
  have hpadding : group.dropWhile (· != padding) =
      List.replicate (group.dropWhile (· != padding)).length padding := by
    rw [List.eq_replicate_iff]
    refine ⟨rfl, fun b hb => ?_⟩
    by_contra hne
    refine hfill ⟨List.ne_nil_of_mem hb, .inr ?_⟩
    exact List.any_eq_true.2 ⟨b, hb, bne_iff_ne.2 hne⟩
  refine ⟨(group.dropWhile (· != padding)).length,
    ⟨hlt, by omega, by omega, by simpa using hspare⟩, ?_⟩
  rw [← hsymbols, ← hpadding, List.takeWhile_append_dropWhile]

theorem sextets_group {a b c d : Nat} (ha : a < 64) (hb : b < 64) (hc : c < 64)
    (hd : d < 64) (rest : List Nat) :
    sextets (bytesOfSextets (a :: b :: c :: d :: rest)) = a :: b :: c ::
      d :: sextets (bytesOfSextets rest) := by
  obtain ⟨n, hn⟩ : ∃ n, ((a * 64 + b) * 64 + c) * 64 + d = n := ⟨_, rfl⟩
  have hfirst : n / 65536 % 256 = n / 65536 := by omega
  have hjoin : (n / 65536 * 256 + n / 256 % 256) * 256 + n % 256 = n := by omega
  simp only [bytesOfSextets, sextets, hn, UInt8.toNat_ofNat', Nat.reducePow,
    hfirst, Nat.mod_mod, hjoin, List.cons.injEq, and_true]
  omega

theorem sextets_last (h : IsLast fill last) (hfour : last.length + fill = 4) :
    sextets (bytesOfSextets last) = last ∧ fillLength (bytesOfSextets last).length = fill := by
  obtain ⟨hlt, htwo, -, hspare⟩ := h
  match last, htwo with
  | [a, b], _ =>
    simp only [List.forall_mem_cons] at hlt
    simp only [hasSpareBits, bne_eq_false_iff_eq] at hspare
    simp only [List.length_cons, List.length_nil] at hfour
    simp only [bytesOfSextets, sextets, UInt8.toNat_ofNat', fillLength,
      List.length_cons, List.length_nil, Nat.reducePow, List.cons.injEq, and_true]
    omega
  | [a, b, c], _ =>
    simp only [List.forall_mem_cons] at hlt
    simp only [hasSpareBits, bne_eq_false_iff_eq] at hspare
    simp only [List.length_cons, List.length_nil] at hfour
    simp only [bytesOfSextets, sextets, UInt8.toNat_ofNat', fillLength,
      List.length_cons, List.length_nil, Nat.reducePow, List.cons.injEq, and_true]
    omega
  | [a, b, c, d], _ =>
    simp only [List.forall_mem_cons] at hlt
    simp only [List.length_cons, List.length_nil] at hfour
    refine ⟨sextets_group hlt.1 hlt.2.1 hlt.2.2.1 hlt.2.2.2.1 [], ?_⟩
    simp only [bytesOfSextets, fillLength, List.length_cons, List.length_nil]
    omega
  | a :: b :: c :: d :: e :: rest, _ =>
    simp only [List.length_cons] at hfour
    omega

theorem sextets_bytesOfSextets (hlast : IsLast fill last) (hfour : last.length + fill = 4) :
    ∀ {front : List Nat}, (∀ n ∈ front, n < 64) → front.length % 4 = 0 →
      sextets (bytesOfSextets (front ++ last)) = front ++ last ∧
        fillLength (bytesOfSextets (front ++ last)).length = fill
  | [], _, _ => sextets_last hlast hfour
  | a :: b :: c :: d :: rest, hfront, hgroups => by
    simp only [List.forall_mem_cons] at hfront
    simp only [List.length_cons] at hgroups
    obtain ⟨hsextets, hfill⟩ := sextets_bytesOfSextets hlast hfour hfront.2.2.2.2 (by omega)
    have hlength : (bytesOfSextets (a :: b :: c :: d :: rest ++ last)).length =
        (bytesOfSextets (rest ++ last)).length + 3 := rfl
    refine ⟨?_, ?_⟩
    · rw [List.cons_append, List.cons_append, List.cons_append, List.cons_append,
        sextets_group hfront.1 hfront.2.1 hfront.2.2.1 hfront.2.2.2.1, hsextets]
    · rw [hlength, ← hfill]
      simp only [fillLength]
      omega

theorem frontLength_bounds {size : Nat} (h : 0 < size) :
    frontLength size % 4 = 0 ∧ frontLength size < size ∧ size ≤ frontLength size + 4 := by
  unfold frontLength
  split <;> omega

/-- A text that is read is the spelling of the bytes that are read. -/
theorem eq_encode_of_decode (h : decode text = .ok bytes) : text = Text.encode (encode bytes) := by
  unfold decode at h
  split at h
  · next hempty =>
    cases h
    exact hempty
  next hne =>
  split at h
  · cases h
  obtain ⟨front, hfront, h⟩ := bind_eq_ok_iff.1 h
  obtain ⟨last, hlast, h⟩ := bind_eq_ok_iff.1 h
  cases h
  obtain ⟨hlt, htake⟩ := eq_code_of_symbolValues hfront
  obtain ⟨fill, hgroup, hdrop⟩ := isLast_of_decodeLast hlast
  -- Padding makes the bytes of the last group four.
  have hcut := frontLength_bounds (List.length_pos_iff.2 hne)
  have htaken := congrArg List.length htake
  have hdropped := congrArg List.length hdrop
  have htwo := hgroup.two_le
  have hmultiple := hgroup.four
  simp only [List.length_take, List.length_drop, List.length_map, List.length_append,
    List.length_replicate] at htaken hdropped
  have hbytes := sextets_bytesOfSextets hgroup (by omega) hlt (by omega)
  rw [encodeText_eq_code, hbytes.1, hbytes.2, List.map_append, List.append_assoc, ← hdrop, ← htake,
    List.take_append_drop]

theorem decode_eq_ok_iff : decode text = .ok bytes ↔ text = Text.encode (encode bytes) := by
  constructor
  · exact eq_encode_of_decode
  · rintro rfl
    exact decode_encode bytes

end Base64

end Calculator
