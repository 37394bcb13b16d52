import Calculator.Proofs.Json.RoundTrip

/-!
# Canonical texts

The canonical text of a value has no space between its tokens, lists the members of every object
with ascending keys, and spells every character in one way: printable ASCII by itself, and what is
no ASCII by the UTF-16 code units with digits in lower case. Writing a value that was read yields
such a text.
-/

namespace Calculator.Json

variable {v : Json} {c : Char} {t : List Char}

inductive SpellsCanonically (c : Char) : List Char → Prop
  | raw (hquote : c ≠ '"') (hslash : c ≠ '\\') (hlower : 0x20 ≤ c.toNat) (hupper : c.toNat < 0x80) :
    SpellsCanonically c [c]
  | letter {e : Char} (he : e ≠ '/') (h : shortEscape? e = some c) : SpellsCanonically c ['\\', e]
  | control (h : c.toNat < 0x20) (hletter : ∀ e, shortEscape? e ≠ some c) :
    SpellsCanonically c ('\\' :: 'u' :: unitDigits c.toNat)
  | wide (hlower : 0x80 ≤ c.toNat) (hupper : c.toNat < 0x10000) :
    SpellsCanonically c ('\\' :: 'u' :: unitDigits c.toNat)
  | pair (h : 0x10000 ≤ c.toNat) :
    SpellsCanonically c
      ('\\' :: 'u' :: unitDigits (highSurrogate c) ++ '\\' :: 'u' :: unitDigits (lowSurrogate c))

inductive SpellsStringCanonically (s : String) : List Char → Prop
  | quoted {spellings : List (List Char)} (h : List.Forall₂ SpellsCanonically s.toList spellings) :
    SpellsStringCanonically s ('"' :: spellings.flatten ++ ['"'])

inductive RendersMemberCanonically (R : Json → List Char → Prop) : String × Json → List Char → Prop
  | member {key : String} {v : Json} {k t : List Char} (hkey : SpellsStringCanonically key k)
      (hv : R v t) :
    RendersMemberCanonically R (key, v) (k ++ ':' :: t)

/-- The canonical texts of a value. The members of an object stand in the order in which it lists
them. -/
inductive RendersCanonically : Json → List Char → Prop
  | null : RendersCanonically .null ['n', 'u', 'l', 'l']
  | yes : RendersCanonically (.bool true) ['t', 'r', 'u', 'e']
  | no : RendersCanonically (.bool false) ['f', 'a', 'l', 's', 'e']
  | number {v : Json} {n : Numeral} (h : n.value? = some v) : RendersCanonically v n.chars
  | string {s : String} {t : List Char} (h : SpellsStringCanonically s t) :
      RendersCanonically (.string s) t
  | array {items : List Json} {texts : List (List Char)}
      (h : List.Forall₂ RendersCanonically items texts) :
    RendersCanonically (.array items) ('[' :: [','].intercalate texts ++ [']'])
  | object {ms : List (String × Json)} {texts : List (List Char)} (hkeys : Ascending ms)
    (h : List.Forall₂ (RendersMemberCanonically RendersCanonically) ms texts) :
    RendersCanonically (.object ms) ('\x7b' :: [','].intercalate texts ++ ['\x7d'])

theorem spellsCanonically_plainChar (h : c.toNat < 0x80) : SpellsCanonically c (plainChar c) := by
  unfold plainChar
  -- The quote, the backslash and five controls have letters.
  iterate 7
    split
    · next h =>
      subst h
      exact .letter (by decide) rfl
  next hquote hslash hbackspace hfeed hnewline hreturn htab =>
  split
  · next hcontrol =>
    rw [unitEscape_eq (by omega)]
    refine .control hcontrol fun e he => ?_
    unfold shortEscape? at he
    split at he <;> cases he <;> contradiction
  · next hcontrol => exact .raw hquote hslash (Nat.le_of_not_lt hcontrol) h

theorem spellsCanonically_canonicalChar (c : Char) : SpellsCanonically c (canonicalChar c) := by
  have hc := not_surrogate c
  unfold canonicalChar wideEscape
  split
  · next h => exact spellsCanonically_plainChar h
  next hlower =>
  split
  · next hupper =>
    rw [unitEscape_eq hupper]
    exact .wide (Nat.le_of_not_lt hlower) hupper
  · next hupper =>
    rw [unitEscape_eq (by omega), unitEscape_eq (by omega)]
    exact .pair (Nat.le_of_not_lt hupper)

theorem spellsStringCanonically_writeString (s : String) :
    SpellsStringCanonically s (writeString .canonical s) := by
  have hspellings : List.Forall₂ SpellsCanonically s.toList (s.toList.map canonicalChar) := by
    rw [List.forall₂_map_right_iff, List.forall₂_same]
    exact fun c _ => spellsCanonically_canonicalChar c
  rw [writeString, List.flatMap_def]
  exact .quoted hspellings

theorem writeItems_eq (spelling : Spelling) (v : Json) (rest : List Json) :
    write spelling v ++ writeItems spelling rest =
      [','].intercalate ((v :: rest).map (write spelling)) ++ [']'] := by
  induction rest generalizing v with
  | nil => simp [writeItems]
  | cons u rest ih =>
    have ih := ih u
    rw [List.map_cons] at ih
    rw [writeItems, List.map_cons, List.map_cons, List.intercalate_cons_cons]
    simp [← ih]

theorem write_array (spelling : Spelling) (items : List Json) :
    write spelling (.array items) = '[' :: [','].intercalate (items.map (write spelling)) ++
      [']'] := by
  cases items with
  | nil => rfl
  | cons v rest => rw [write, List.cons_append, List.cons_append, writeItems_eq]

def writeMember (spelling : Spelling) (m : String × Json) : List Char :=
  writeString spelling m.1 ++ ':' :: write spelling m.2

theorem writeMembers_eq (spelling : Spelling) (m : String × Json) (rest : List (String × Json)) :
    writeMember spelling m ++ writeMembers spelling rest =
      [','].intercalate ((m :: rest).map (writeMember spelling)) ++ ['\x7d'] := by
  induction rest generalizing m with
  | nil => simp [writeMembers]
  | cons n rest ih =>
    have ih := ih n
    rw [List.map_cons] at ih
    have htext : writeMembers spelling (n :: rest) = ',' ::
        (writeMember spelling n ++ writeMembers spelling rest) := by
      simp [writeMembers, writeMember]
    rw [htext, List.map_cons, List.map_cons, List.intercalate_cons_cons, ih]
    simp

theorem write_object (spelling : Spelling) (ms : List (String × Json)) :
    write spelling (.object ms) = '\x7b' :: [','].intercalate (ms.map (writeMember spelling)) ++
      ['\x7d'] := by
  cases ms with
  | nil => rfl
  | cons m rest =>
    rw [List.cons_append, ← writeMembers_eq]
    simp [write, writeMember]

theorem rendersCanonically_of_isNumber (hv : IsNumber v) (h : Renders v t) :
    RendersCanonically v t := by
  cases hv with
  | whole w =>
    cases h with
    | number h => exact .number h
  | float hx =>
    cases h with
    | number h => exact .number h

mutual

theorem rendersCanonically_write :
    (v : Json) → FiniteFloats v → AscendingKeys v → RendersCanonically v (write .canonical v)
  | .null, _, _ => .null
  | .bool true, _, _ => .yes
  | .bool false, _, _ => .no
  | .whole w, _, _ => rendersCanonically_of_isNumber (.whole w) (renders_writeWhole w)
  | .float x, h, _ =>
    have hx := h x (.self _)
    rendersCanonically_of_isNumber (.float hx) (isFaithful_canonical.float x hx)
  | .string s, _, _ => .string (spellsStringCanonically_writeString s)
  | .array items, h, hkeys => by
    rw [write_array]
    exact .array (forall₂_write items (fun v hv x hx => h x (.item hv hx))
      fun v hv ms hms => hkeys ms (.item hv hms))
  | .object ms, h, hkeys => by
    rw [write_object]
    exact .object (hkeys ms (.self _))
      (forall₂_writeMember ms (fun m hm x hx => h x (.member hm hx))
      fun m hm ns hns => hkeys ns (.member hm hns))

theorem forall₂_write :
    (items : List Json) → (∀ v ∈ items, FiniteFloats v) → (∀ v ∈ items, AscendingKeys v) →
      List.Forall₂ RendersCanonically items (items.map (write .canonical))
  | [], _, _ => .nil
  | v :: rest, h, hkeys =>
    .cons (rendersCanonically_write v (h v List.mem_cons_self) (hkeys v List.mem_cons_self))
      (forall₂_write rest (fun u hu => h u (List.mem_cons_of_mem v hu))
        fun u hu => hkeys u (List.mem_cons_of_mem v hu))

theorem forall₂_writeMember :
    (ms : List (String × Json)) → (∀ m ∈ ms, FiniteFloats m.2) → (∀ m ∈ ms, AscendingKeys m.2) →
      List.Forall₂ (RendersMemberCanonically RendersCanonically) ms
        (ms.map (writeMember .canonical))
  | [], _, _ => .nil
  | (key, v) :: rest, h, hkeys =>
    .cons (.member (spellsStringCanonically_writeString key)
        (rendersCanonically_write v (h (key, v) List.mem_cons_self)
          (hkeys (key, v) List.mem_cons_self)))
      (forall₂_writeMember rest (fun m hm => h m (List.mem_cons_of_mem _ hm)) fun m hm =>
        hkeys m (List.mem_cons_of_mem _ hm))

end

end Calculator.Json
