import Calculator.Encoding.Base64
import Calculator.Proofs.Text.Trim
import Calculator.Proofs.Text.Utf8

/-!
# Reading back base64 text

The spelling of a byte sequence is read back as that sequence, whatever its length and padding. A
text is taken apart into the sextets behind its symbols and the padding after them. The sextets of
all groups but the last are read as they stand, those of the last one are followed by the padding.
-/

namespace Calculator.Base64

variable {n fill : Nat} {ns : List Nat} {c : Char}

def code (n : Nat) : UInt8 :=
  UInt8.ofNat (symbol n).toNat

theorem symbolValue?_code (h : n < 64) : symbolValue? (code n) = some n := by
  revert n
  decide +kernel

theorem code_ne_padding (h : n < 64) : code n ≠ padding := by
  intro heq
  have hvalue := symbolValue?_code h
  rw [heq] at hvalue
  cases hvalue

theorem ascii_symbol (h : n < 64) : (symbol n).toNat < 0x80 := by
  revert n
  decide +kernel

theorem isBlank_symbol (h : n < 64) : Text.isBlank (symbol n) = false := by
  revert n
  decide +kernel

theorem symbolValues_code (h : ∀ n ∈ ns, n < 64) (offset : Nat) :
    symbolValues offset (ns.map code) = .ok ns := by
  induction ns generalizing offset with
  | nil => rfl
  | cons n ns ih =>
    have hn : symbolValue? (code n) = some n := symbolValue?_code (h n List.mem_cons_self)
    have hns := ih (fun m hm => h m (List.mem_cons_of_mem n hm)) (offset + 1)
    simp only [List.map_cons, symbolValues, symbolAt, hn, hns, bind, Except.bind, pure, Except.pure]

def sextets : Bytes → List Nat
  | a :: b :: c :: rest =>
    let n := (a.toNat * 256 + b.toNat) * 256 + c.toNat
    n / 262144 :: n / 4096 % 64 :: n / 64 % 64 :: n % 64 :: sextets rest
  | [a, b] =>
    let n := (a.toNat * 256 + b.toNat) * 4
    [n / 4096, n / 64 % 64, n % 64]
  | [a] =>
    let n := a.toNat * 16
    [n / 64, n % 64]
  | [] => []

def fillLength (size : Nat) : Nat :=
  (3 - size % 3) % 3

theorem encode_eq_sextets (bytes : Bytes) :
    encode bytes = (sextets bytes).map symbol ++ List.replicate (fillLength bytes.length) '=' := by
  induction bytes using sextets.induct with
  | case1 a b c rest ih =>
    have hfill : fillLength (a :: b :: c :: rest).length = fillLength rest.length := by
      simp only [fillLength, List.length_cons]
      omega
    rw [hfill, encode, sextets, ih]
    rfl
  | case2 a b => rfl
  | case3 a => rfl
  | case4 => rfl

theorem lt_of_mem_sextets {bytes : Bytes} (h : n ∈ sextets bytes) : n < 64 := by
  induction bytes using sextets.induct with
  | case1 a b c rest ih =>
    have ha := a.toNat_lt
    have hb := b.toNat_lt
    have hc := c.toNat_lt
    simp only [sextets, List.mem_cons] at h
    rcases h with rfl | rfl | rfl | rfl | h
    · omega
    · omega
    · omega
    · omega
    · exact ih h
  | case2 a b =>
    have ha := a.toNat_lt
    have hb := b.toNat_lt
    simp only [sextets, List.mem_cons, List.not_mem_nil, or_false] at h
    rcases h with rfl | rfl | rfl <;> omega
  | case3 a =>
    have ha := a.toNat_lt
    simp only [sextets, List.mem_cons, List.not_mem_nil, or_false] at h
    rcases h with rfl | rfl <;> omega
  | case4 => exact nomatch h

theorem length_sextets (bytes : Bytes) :
    (sextets bytes).length + fillLength bytes.length = 4 * ((bytes.length + 2) / 3) := by
  induction bytes using sextets.induct with
  | case1 a b c rest ih =>
    simp only [sextets, fillLength, List.length_cons] at ih ⊢
    omega
  | case2 a b => simp [sextets, fillLength]
  | case3 a => simp [sextets, fillLength]
  | case4 => rfl

theorem bytesOfSextets_sextets (bytes : Bytes) : bytesOfSextets (sextets bytes) = bytes := by
  induction bytes using sextets.induct with
  | case1 a b c rest ih =>
    have ha := a.toNat_lt
    have hb := b.toNat_lt
    have hc := c.toNat_lt
    obtain ⟨n, hn⟩ : ∃ n, (a.toNat * 256 + b.toNat) * 256 + c.toNat = n := ⟨_, rfl⟩
    have hjoin :
        ((n / 262144 * 64 + n / 4096 % 64) * 64 + n / 64 % 64) * 64 + n % 64 = n := by omega
    have hfirst : n / 65536 = a.toNat := by omega
    have hsecond : n / 256 % 256 = b.toNat := by omega
    have hthird : n % 256 = c.toNat := by omega
    simp only [sextets, bytesOfSextets, hn]
    rw [hjoin, hfirst, hsecond, hthird, ih, UInt8.ofNat_toNat, UInt8.ofNat_toNat, UInt8.ofNat_toNat]
  | case2 a b =>
    have ha := a.toNat_lt
    have hb := b.toNat_lt
    obtain ⟨n, hn⟩ : ∃ n, (a.toNat * 256 + b.toNat) * 4 = n := ⟨_, rfl⟩
    have hjoin : (n / 4096 * 64 + n / 64 % 64) * 64 + n % 64 = n := by omega
    have hfirst : n / 1024 = a.toNat := by omega
    have hsecond : n / 4 % 256 = b.toNat := by omega
    simp only [sextets, bytesOfSextets, hn]
    rw [hjoin, hfirst, hsecond, UInt8.ofNat_toNat, UInt8.ofNat_toNat]
  | case3 a =>
    have ha := a.toNat_lt
    have hfirst : (a.toNat * 16 / 64 * 64 + a.toNat * 16 % 64) / 16 = a.toNat := by omega
    simp only [sextets, bytesOfSextets]
    rw [hfirst, UInt8.ofNat_toNat]
  | case4 => rfl

theorem hasSpareBits_sextets (bytes : Bytes) :
    hasSpareBits ((sextets bytes).drop (4 * ((bytes.length - 1) / 3))) = false := by
  induction bytes using sextets.induct with
  | case1 a b c rest ih =>
    cases rest with
    | nil => simp [sextets, hasSpareBits]
    | cons d rest =>
      have hfront : 4 * (((a :: b :: c :: d :: rest).length - 1) / 3) =
          4 * (((d :: rest).length - 1) / 3) + 4 := by
        simp only [List.length_cons]
        omega
      rw [hfront, sextets]
      exact ih
  | case2 a b =>
    have hspare : (a.toNat * 256 + b.toNat) * 4 % 64 % 4 = 0 := by omega
    simp [sextets, hasSpareBits, hspare]
  | case3 a =>
    have hspare : a.toNat * 16 % 64 % 16 = 0 := by omega
    simp [sextets, hasSpareBits, hspare]
  | case4 => rfl

theorem decodeLast_code (hlt : ∀ n ∈ ns, n < 64) (htwo : 2 ≤ ns.length)
    (hfour : ns.length + fill = 4) (hspare : hasSpareBits ns = false) (offset : Nat) :
    decodeLast offset (ns.map code ++ List.replicate fill padding) = .ok ns := by
  have hsymbols : ∀ b ∈ ns.map code, (b != padding) = true := by
    intro b hb
    obtain ⟨n, hn, rfl⟩ := List.mem_map.1 hb
    exact bne_iff_ne.2 (code_ne_padding (hlt n hn))
  have htake :
      (ns.map code ++ List.replicate fill padding).takeWhile (· != padding) = ns.map code := by
    rw [List.takeWhile_append_of_pos hsymbols]
    cases fill <;> simp [List.replicate_succ]
  have hdrop : (ns.map code ++ List.replicate fill padding).dropWhile (· != padding) =
      List.replicate fill padding := by
    rw [List.dropWhile_append_of_pos hsymbols]
    cases fill <;> simp [List.replicate_succ]
  have hfill : (List.replicate fill padding).any (· != padding) = false := by
    simp
  simp only [decodeLast, htake, hdrop, symbolValues_code hlt, bind, Except.bind, List.length_map,
    List.length_replicate, hfill, hspare]
  rw [if_neg (by simp; omega), if_neg (by omega), if_neg (by omega), if_neg (by simp)]

theorem decode_code {front last : List Nat} (hlt : ∀ n ∈ front ++ last, n < 64)
    (hgroups : front.length % 4 = 0)
    (htwo : 2 ≤ last.length) (hfour : last.length + fill = 4) (hspare : hasSpareBits last = false) :
    decode ((front ++ last).map code ++ List.replicate fill padding) =
      .ok (bytesOfSextets (front ++ last)) := by
  rw [List.map_append, List.append_assoc]
  have hsize : (front.map code ++ (last.map code ++ List.replicate fill padding)).length =
      front.length + 4 := by
    simp only [List.length_append, List.length_map, List.length_replicate]
    omega
  have hne : front.map code ++ (last.map code ++ List.replicate fill padding) ≠ [] := by
    rw [← List.length_pos_iff]
    omega
  have hstray :
      strayByte? (front.map code ++ (last.map code ++ List.replicate fill padding)) = none := by
    rw [strayByte?, if_neg (by omega)]
  have hcut : frontLength (front.map code ++
    (last.map code ++ List.replicate fill padding)).length =
      (front.map code).length := by
    rw [hsize, frontLength, if_pos (by omega), Nat.add_sub_cancel, List.length_map]
  have hfront : symbolValues 0 (front.map code) = .ok front :=
    symbolValues_code (fun n hn => hlt n (List.mem_append_left last hn)) 0
  have hlast := decodeLast_code (fun n hn => hlt n (List.mem_append_right front hn))
    htwo hfour hspare
    (front.map code).length
  rw [decode, if_neg hne, hstray]
  simp only [hcut, List.take_left, List.drop_left, hfront, hlast, bind,
    Except.bind, pure, Except.pure]

theorem eq_symbol_of_mem_encode {bytes : Bytes} (h : c ∈ encode bytes) :
    (∃ n < 64, c = symbol n) ∨ c = '=' := by
  rw [encode_eq_sextets, List.mem_append] at h
  rcases h with h | h
  · obtain ⟨n, hn, rfl⟩ := List.mem_map.1 h
    exact .inl ⟨n, lt_of_mem_sextets hn, rfl⟩
  · exact .inr (List.eq_of_mem_replicate h)

theorem ascii_of_mem_encode {bytes : Bytes} (h : c ∈ encode bytes) : c.toNat < 0x80 := by
  rcases eq_symbol_of_mem_encode h with ⟨n, hn, rfl⟩ | rfl
  · exact ascii_symbol hn
  · decide

theorem isBlank_of_mem_encode {bytes : Bytes} (h : c ∈ encode bytes) : Text.isBlank c = false := by
  rcases eq_symbol_of_mem_encode h with ⟨n, hn, rfl⟩ | rfl
  · exact isBlank_symbol hn
  · decide +kernel

theorem encodeText_eq_code (bytes : Bytes) :
    Text.encode (encode bytes) =
      (sextets bytes).map code ++ List.replicate (fillLength bytes.length) padding := by
  rw [Text.encode_of_ascii fun c hc => ascii_of_mem_encode hc, encode_eq_sextets,
    List.map_append, List.map_map, List.map_replicate]
  rfl

/-- The spelling of a byte sequence is read back. -/
theorem decode_encode (bytes : Bytes) : decode (Text.encode (encode bytes)) = .ok bytes := by
  by_cases hempty : bytes = []
  · rw [hempty]
    rfl
  have hpos : 0 < bytes.length := List.length_pos_iff.2 hempty
  have hlength := length_sextets bytes
  have hfill : fillLength bytes.length ≤ 2 := by
    simp only [fillLength]
    omega
  have hsplit := List.take_append_drop (4 * ((bytes.length - 1) / 3)) (sextets bytes)
  rw [encodeText_eq_code]
  conv_lhs => rw [← hsplit]
  rw [decode_code ?_ ?_ ?_ ?_ (hasSpareBits_sextets bytes), hsplit, bytesOfSextets_sextets]
  · rw [hsplit]
    exact fun n hn => lt_of_mem_sextets hn
  · rw [List.length_take]
    omega
  · rw [List.length_drop]
    omega
  · rw [List.length_drop]
    omega

end Calculator.Base64
