import Calculator.Json.Reader
import Calculator.Json.Writer

/-!
# Spellings of a string

A character of a string may stand for itself or be escaped, by a letter or by its UTF-16 code units
with hexadecimal digits of either case. Every spelling is read as the characters that it spells, and
what is written, in the plain and in the canonical spelling, is among them.
-/

namespace Calculator.Json

variable {c : Char} {cs ds text rest : List Char} {s : String} {n fuel : Nat}

inductive SpellsDigit : Nat → Char → Prop
  | lower {n : Nat} (h : n < 16) : SpellsDigit n (Nat.digitChar n)
  | upper {n : Nat} (h : n < 16) : SpellsDigit n (Nat.digitChar n).toUpper

inductive SpellsUnit (n : Nat) : List Char → Prop
  | digits {a b c d : Char} (ha : SpellsDigit (n / 4096) a) (hb : SpellsDigit (n / 256 % 16) b)
    (hc : SpellsDigit (n / 16 % 16) c) (hd : SpellsDigit (n % 16) d) : SpellsUnit n [a, b, c, d]

def highSurrogate (c : Char) : Nat :=
  0xD800 + (c.toNat - 0x10000) / 0x400

def lowSurrogate (c : Char) : Nat :=
  0xDC00 + (c.toNat - 0x10000) % 0x400

inductive SpellsChar (c : Char) : List Char → Prop
  | raw (hquote : c ≠ '"') (hslash : c ≠ '\\') (hcontrol : 0x20 ≤ c.toNat) : SpellsChar c [c]
  | letter {e : Char} (h : shortEscape? e = some c) : SpellsChar c ['\\', e]
  | unit {ds : List Char} (hc : c.toNat < 0x10000) (h : SpellsUnit c.toNat ds) :
      SpellsChar c ('\\' :: 'u' :: ds)
  | pair {hs ls : List Char} (hc : 0x10000 ≤ c.toNat) (hhigh : SpellsUnit (highSurrogate c) hs)
    (hlow : SpellsUnit (lowSurrogate c) ls) : SpellsChar c ('\\' :: 'u' :: hs ++ '\\' :: 'u' :: ls)

inductive SpellsChars : List Char → List Char → Prop
  | nil : SpellsChars [] []
  | cons {c : Char} {cs t u : List Char} (hc : SpellsChar c t) (hcs : SpellsChars cs u) :
    SpellsChars (c :: cs) (t ++ u)

inductive SpellsString (s : String) : List Char → Prop
  | quoted {u : List Char} (h : SpellsChars s.toList u) : SpellsString s ('"' :: u ++ ['"'])

theorem hexValue?_digit (h : SpellsDigit n c) : hexValue? c = some n := by
  have hlower : ∀ n < 16, hexValue? (Nat.digitChar n) = some n := by decide
  have hupper : ∀ n < 16, hexValue? (Nat.digitChar n).toUpper = some n := by decide
  cases h with
  | lower h => exact hlower n h
  | upper h => exact hupper n h

theorem hexUnit?_unit (hn : n < 0x10000) (h : SpellsUnit n ds) : hexUnit? ds = some n := by
  obtain ⟨ha, hb, hc, hd⟩ := h
  have hvalue : ((n / 4096 * 16 + n / 256 % 16) * 16 + n / 16 % 16) * 16 + n % 16 = n := by omega
  simp [hexUnit?, hexValue?_digit ha, hexValue?_digit hb, hexValue?_digit hc,
    hexValue?_digit hd, hvalue]

theorem length_le_byteCount (cs : List Char) : cs.length ≤ Text.byteCount cs := by
  induction cs with
  | nil => exact Nat.le_refl 0
  | cons c cs ih =>
    have hpos := c.utf8Size_pos
    rw [Text.byteCount_cons, List.length_cons]
    omega

theorem SpellsUnit.length_eq (h : SpellsUnit n ds) : ds.length = 4 := by
  cases h
  rfl

theorem readHexUnit_unit (hn : n < 0x10000) (h : SpellsUnit n ds) (rest : List Char) :
    readHexUnit (ds ++ rest) = .ok (n, rest) := by
  have hlength := h.length_eq
  have hbytes : ¬Text.byteCount ds < 4 := Nat.not_lt.2 (hlength ▸ length_le_byteCount ds)
  simp only [readHexUnit, List.take_left' hlength, List.drop_left' hlength, hexUnit?_unit hn h]
  rw [if_neg hbytes]

theorem readEscape_letter {e : Char} (h : shortEscape? e = some c) (rest : List Char) :
    readEscape (e :: rest) = .ok (c, rest) := by
  simp [readEscape, h]

theorem readEscape_hex (rest : List Char) : readEscape ('u' :: rest) = readHexEscape rest := by
  simp [readEscape, shortEscape?]

theorem not_surrogate (c : Char) : c.toNat < 0xD800 ∨ 0xDFFF < c.toNat ∧ c.toNat < 0x110000 :=
  c.valid

theorem readEscape_unit (hc : c.toNat < 0x10000) (h : SpellsUnit c.toNat ds) (rest : List Char) :
    readEscape ('u' :: ds ++ rest) = .ok (c, rest) := by
  have hc' := not_surrogate c
  rw [List.cons_append, readEscape_hex]
  simp only [readHexEscape, bind, Except.bind, readHexUnit_unit hc h]
  rw [if_neg (by simp; omega), if_neg (by simp; omega), Char.ofNat_toNat]

theorem readPairChar_self (c : Char) (rest : List Char) :
    readPairChar c (c :: rest) = .ok ((), rest) := by
  simp [readPairChar]

theorem pairChar_surrogates (hc : 0x10000 ≤ c.toNat) :
    pairChar (highSurrogate c) (lowSurrogate c) = c := by
  have hcode :
      (highSurrogate c - 0xD800) * 0x400 + (lowSurrogate c - 0xDC00) + 0x10000 = c.toNat := by
    rw [highSurrogate, lowSurrogate]
    omega
  rw [pairChar, hcode, Char.ofNat_toNat]

theorem readEscape_pair {hs ls : List Char} (hc : 0x10000 ≤ c.toNat)
    (hhigh : SpellsUnit (highSurrogate c) hs)
    (hlow : SpellsUnit (lowSurrogate c) ls) (rest : List Char) :
    readEscape ('u' :: hs ++ '\\' :: 'u' :: ls ++ rest) = .ok (c, rest) := by
  have hc' := not_surrogate c
  have hhigh' : 0xD800 ≤ highSurrogate c ∧ highSurrogate c ≤ 0xDBFF := by
    rw [highSurrogate]
    omega
  have hlow' : 0xDC00 ≤ lowSurrogate c ∧ lowSurrogate c ≤ 0xDFFF := by
    rw [lowSurrogate]
    omega
  have hfirst : readHexUnit (hs ++ '\\' :: 'u' :: (ls ++ rest)) =
    .ok (highSurrogate c, '\\' :: 'u' :: (ls ++ rest)) :=
    readHexUnit_unit (by omega) hhigh _
  have hsecond : readHexUnit (ls ++ rest) = .ok (lowSurrogate c, rest) :=
    readHexUnit_unit (by omega) hlow rest
  have htext :
      'u' :: hs ++ '\\' :: 'u' :: ls ++ rest = 'u' :: (hs ++ '\\' :: 'u' :: (ls ++ rest)) := by simp
  rw [htext, readEscape_hex]
  simp only [readHexEscape, bind, Except.bind, hfirst, readPairChar_self, hsecond]
  rw [if_neg (by simp; omega), if_pos (by simp; omega), if_pos (by simp; omega),
    pairChar_surrogates hc]

theorem readChars_char {t : List Char} (h : SpellsChar c t) (done rest : List Char) :
    readChars (fuel + 1) done (t ++ rest) = readChars fuel (c :: done) rest := by
  have hescape : ∀ u, readEscape (u ++ rest) = .ok (c, rest) →
      readChars (fuel + 1) done ('\\' :: u ++ rest) = readChars fuel (c :: done) rest := by
    intro u hu
    rw [List.cons_append, readChars, if_neg (by decide), if_pos rfl, hu]
    rfl
  cases h with
  | raw hquote hslash hcontrol =>
    rw [List.singleton_append, readChars, if_neg hquote, if_neg hslash, if_neg (by omega)]
  | letter h => exact hescape _ (readEscape_letter h rest)
  | unit hc h => exact hescape _ (readEscape_unit hc h rest)
  | pair hc hhigh hlow => exact hescape _ (readEscape_pair hc hhigh hlow rest)

theorem SpellsChar.length_pos {t : List Char} (h : SpellsChar c t) : 0 < t.length := by
  cases h <;> simp

theorem readChars_chars {u : List Char} (h : SpellsChars cs u) (hfuel : u.length < fuel)
    (done rest : List Char) :
    readChars fuel done (u ++ '"' :: rest) = .ok (done.reverse ++ cs, rest) := by
  induction h generalizing fuel done with
  | nil =>
    obtain ⟨fuel, rfl⟩ := Nat.exists_eq_add_one_of_ne_zero (Nat.ne_of_gt hfuel)
    rw [List.nil_append, readChars, if_pos rfl, List.append_nil]
  | cons hc _ ih =>
    have hpos := hc.length_pos
    rw [List.length_append] at hfuel
    obtain ⟨fuel, rfl⟩ := Nat.exists_eq_add_one_of_ne_zero (Nat.ne_of_gt (Nat.zero_lt_of_lt hfuel))
    rw [List.append_assoc, readChars_char hc, ih (by omega)]
    simp

theorem readString_string {u : List Char} (h : SpellsChars s.toList u)
    (hfuel : u.length < fuel) (rest : List Char) :
    readString fuel (u ++ '"' :: rest) = .ok (s, rest) := by
  rw [readString, readChars_chars h hfuel]
  change Except.ok (String.ofList ([].reverse ++ s.toList), rest) = _
  simp

theorem pad_toDigits {width : Nat} (hwidth : 0 < width) (n : Nat) :
    List.replicate (width + 1 - (Nat.toDigits 16 n).length) '0' ++ Nat.toDigits 16 n =
      List.replicate (width - (Nat.toDigits 16 (n / 16)).length) '0' ++ Nat.toDigits 16 (n / 16) ++
        [Nat.digitChar (n % 16)] := by
  by_cases hn : n < 16
  · have hzero : List.replicate width '0' = List.replicate (width - 1) '0' ++ ['0'] := by
      rw [← List.replicate_succ', Nat.sub_add_cancel hwidth]
    simp [Nat.toDigits_of_lt_base hn, Nat.div_eq_of_lt hn, Nat.mod_eq_of_lt hn, hzero]
  · rw [Nat.toDigits_of_base_le (n := n) (by decide) (by omega), List.length_append,
      List.length_singleton, Nat.add_sub_add_right, List.append_assoc]

def unitDigits (n : Nat) : List Char :=
  [Nat.digitChar (n / 4096), Nat.digitChar (n / 256 % 16), Nat.digitChar (n / 16 % 16),
    Nat.digitChar (n % 16)]

theorem unitEscape_eq (hn : n < 0x10000) : unitEscape n = '\\' :: 'u' :: unitDigits n := by
  have hdigits :
      List.replicate (4 - (Nat.toDigits 16 n).length) '0' ++ Nat.toDigits 16 n = unitDigits n := by
    have hlast : List.replicate (1 - (Nat.toDigits 16 (n / 16 / 16 / 16)).length) '0' ++
        Nat.toDigits 16 (n / 16 / 16 / 16) = [Nat.digitChar (n / 4096)] := by
      rw [Nat.div_div_eq_div_mul, Nat.div_div_eq_div_mul, Nat.toDigits_of_lt_base (by omega)]
      rfl
    rw [pad_toDigits (by decide), pad_toDigits (by decide), pad_toDigits (by decide), hlast,
      Nat.div_div_eq_div_mul]
    rfl
  exact congrArg (fun ds => '\\' :: 'u' :: ds) hdigits

theorem spellsUnit_unitEscape (hn : n < 0x10000) :
    ∃ ds, unitEscape n = '\\' :: 'u' :: ds ∧ SpellsUnit n ds := by
  refine ⟨unitDigits n, unitEscape_eq hn, ?_⟩
  exact .digits (.lower (by omega)) (.lower (by omega)) (.lower (by omega)) (.lower (by omega))

theorem spellsChar_unitEscape (hc : c.toNat < 0x10000) : SpellsChar c (unitEscape c.toNat) := by
  obtain ⟨ds, htext, h⟩ := spellsUnit_unitEscape hc
  rw [htext]
  exact .unit hc h

theorem spellsChar_plainChar (c : Char) : SpellsChar c (plainChar c) := by
  unfold plainChar
  -- The quote, the backslash and five controls have letters.
  iterate 7
    split
    · next h =>
      subst h
      exact .letter rfl
  split
  · exact spellsChar_unitEscape (by omega)
  · next hquote hslash _ _ _ _ _ hcontrol => exact .raw hquote hslash (Nat.le_of_not_lt hcontrol)

theorem spellsChar_canonicalChar (c : Char) : SpellsChar c (canonicalChar c) := by
  have hc := not_surrogate c
  unfold canonicalChar wideEscape
  split
  · exact spellsChar_plainChar c
  split
  · next h => exact spellsChar_unitEscape h
  · next h =>
    obtain ⟨hs, hhightext, hhigh⟩ := spellsUnit_unitEscape (n := highSurrogate c)
      (by rw [highSurrogate]; omega)
    obtain ⟨ls, hlowtext, hlow⟩ := spellsUnit_unitEscape (n := lowSurrogate c)
      (by rw [lowSurrogate]; omega)
    rw [highSurrogate] at hhightext
    rw [lowSurrogate] at hlowtext
    rw [hhightext, hlowtext]
    exact .pair (by omega) hhigh hlow

theorem spellsChars_flatMap {spell : Char → List Char} (h : ∀ c, SpellsChar c (spell c))
    (cs : List Char) :
    SpellsChars cs (cs.flatMap spell) := by
  induction cs with
  | nil => exact .nil
  | cons c cs ih => exact .cons (h c) ih

theorem spellsString_writeString {spelling : Spelling} (h : ∀ c, SpellsChar c (spelling.char c))
    (s : String) :
    SpellsString s (writeString spelling s) :=
  .quoted (spellsChars_flatMap h s.toList)

end Calculator.Json
