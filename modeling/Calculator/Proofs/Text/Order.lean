import Calculator.Proofs.Text.Utf8

/-!
# The order of texts and of their bytes

Texts are in the order of their first different characters, and so are their bytes: a greater
character begins with a greater byte, or goes on with one behind bytes that are the same.
-/

namespace Calculator.Text

variable {c d : Char} {cs ds : List Char} {m n : Nat}

theorem ofNat_lt_ofNat (hm : m < 0x100) (hn : n < 0x100) :
    UInt8.ofNat m < UInt8.ofNat n ↔ m < n := by
  rw [UInt8.lt_iff_toNat_lt, UInt8.toNat_ofNat', UInt8.toNat_ofNat',
    Nat.mod_eq_of_lt hm, Nat.mod_eq_of_lt hn]

theorem ofNat_eq_ofNat (hm : m < 0x100) (hn : n < 0x100) :
    UInt8.ofNat m = UInt8.ofNat n ↔ m = n := by
  rw [← UInt8.toNat_inj, UInt8.toNat_ofNat', UInt8.toNat_ofNat', Nat.mod_eq_of_lt hm,
    Nat.mod_eq_of_lt hn]

theorem encodeChar_append_lt (h : c < d) (rest rest' : Bytes) :
    String.utf8EncodeChar c ++ rest < String.utf8EncodeChar d ++ rest' := by
  have hc := toNat_lt_of_char c
  have hd := toNat_lt_of_char d
  have hval : c.val.toNat = c.toNat := rfl
  have hval' : d.val.toNat = d.toNat := rfl
  have hlt : c.toNat < d.toNat := h
  have hquotients : ∀ n < 0x110000, n / 64 / 64 = n / 4096 ∧ n / 4096 / 64 = n / 262144 ∧
    n / 262144 % 8 = n / 262144 :=
    fun n hn => by omega
  have hc' := hquotients c.toNat hc
  have hd' := hquotients d.toNat hd
  have hmono : ∀ k, c.toNat / k ≤ d.toNat / k := fun k => Nat.div_le_div_right (Nat.le_of_lt hlt)
  have hmono' := And.intro (hmono 64) (And.intro (hmono 4096) (hmono 262144))
  simp only [String.utf8EncodeChar, hval, hval']
  -- The greater character has more bytes and a greater first one, or as many.
  split_ifs
  all_goals simp (disch := omega) only [List.cons_append, List.nil_append,
    List.cons_lt_cons_iff, ofNat_lt_ofNat, ofNat_eq_ofNat]
  all_goals omega

theorem append_lt_append_left {bytes rest rest' : Bytes} (h : rest < rest') :
    bytes ++ rest < bytes ++ rest' := by
  induction bytes with
  | nil => exact h
  | cons b bytes ih => exact List.cons_lt_cons_iff.2 (.inr ⟨rfl, ih⟩)

theorem encode_lt_encode (h : cs < ds) : encode cs < encode ds := by
  induction cs generalizing ds with
  | nil =>
    cases ds with
    | nil => exact absurd h (List.lt_irrefl _)
    | cons d ds =>
      have hne : encode (d :: ds) ≠ [] := by simp [encode_cons]
      obtain ⟨b, bytes, hbytes⟩ := List.exists_cons_of_ne_nil hne
      rw [hbytes]
      exact List.nil_lt_cons b bytes
  | cons c cs ih =>
    cases ds with
    | nil => exact absurd h (List.not_lt_nil _)
    | cons d ds =>
      rw [encode_cons, encode_cons]
      rcases List.cons_lt_cons_iff.1 h with hfirst | ⟨rfl, hrest⟩
      · exact encodeChar_append_lt hfirst _ _
      · exact append_lt_append_left (ih hrest)

theorem encode_lt_encode_iff {s t : String} : encode s.toList < encode t.toList ↔ s < t := by
  refine ⟨fun h => ?_, fun h => encode_lt_encode h⟩
  rcases lt_trichotomy s t with hlt | rfl | hgt
  · exact hlt
  · exact absurd h (List.lt_irrefl _)
  · exact absurd (List.lt_trans h (encode_lt_encode hgt)) (List.lt_irrefl _)

end Calculator.Text
