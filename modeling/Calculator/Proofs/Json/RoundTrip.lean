import Calculator.Proofs.Json.Number
import Calculator.Proofs.Outcome

/-!
# Reading what was written

A value that was read has ascending keys, finite floats and a bounded depth. A value of finite
floats is written as one of its renderings, so a document and the text written for its value are
read alike.
-/

namespace Calculator.Json

variable {σ : Type} {v : Json} {text rest cs : List Char} {fuel depth : Nat}

inductive IsNumber : Json → Prop
  | whole (w : Whole) : IsNumber (.whole w)
  | float {x : Float} (h : x.isFinite = true) : IsNumber (.float x)

theorem isFinite_floatOfPattern_zero (negative : Bool) :
    (Binary64.floatOfPattern negative 0).isFinite = true :=
  Binary64.isFinite_floatOfPattern (by decide)

theorem isFinite_of_nearest? {negative : Bool} {d : Decimal} {x : Float}
    (h : Decimal.nearest? negative d = some x) :
    x.isFinite = true := by
  obtain ⟨pattern, hpattern, rfl⟩ := Option.map_eq_some_iff.1 h
  exact Binary64.isFinite_floatOfPattern (Decimal.pattern?_lt_infinityPattern hpattern)

theorem isNumber_of_readExponentDigits {negative exponentNegative : Bool}
    {digits value : Nat} {exponent : Int}
    (h : readExponentDigits negative exponentNegative digits exponent value cs = .ok (v, rest)) :
      IsNumber v := by
  have hfinish : ∀ value cs, readExponentDigits.finish negative exponentNegative
    digits exponent value cs =
      .ok (v, rest) → IsNumber v := by
    intro value cs h
    simp only [readExponentDigits.finish] at h
    split at h
    · next hx =>
      cases h
      exact .float (isFinite_of_nearest? hx)
    · cases h
  induction cs generalizing value with
  | nil => exact hfinish value [] h
  | cons c cs ih =>
    unfold readExponentDigits at h
    split at h
    · simp only at h
      split at h
      · exact ih h
      · split at h
        · cases h
        · cases h
          exact .float (isFinite_floatOfPattern_zero negative)
    · exact hfinish value (c :: cs) h

theorem isNumber_of_readExponent {negative : Bool} {digits : Nat} {exponent : Int}
    (h : readExponent negative digits exponent cs = .ok (v, rest)) : IsNumber v := by
  simp only [readExponent] at h
  split at h
  · cases h
  · split at h
    · exact isNumber_of_readExponentDigits h
    · cases h

theorem isNumber_of_readScale {negative : Bool} {digits : Nat} {exponent : Int}
    (h : readScale negative digits exponent cs = .ok (v, rest)) : IsNumber v := by
  unfold readScale at h
  split at h
  · exact isNumber_of_readExponent h
  · exact isNumber_of_readExponent h
  · split at h
    · next hx =>
      cases h
      exact .float (isFinite_of_nearest? hx)
    · cases h

theorem isNumber_of_readFraction {negative : Bool} {digits : Nat}
    (h : readFraction negative digits cs = .ok (v, rest)) : IsNumber v := by
  simp only [readFraction] at h
  split at h
  · split at h <;> cases h
  · exact isNumber_of_readScale h

theorem isNumber_of_readAfterDigits {negative : Bool} {digits : Nat}
    (h : readAfterDigits negative digits cs = .ok (v, rest)) : IsNumber v := by
  unfold readAfterDigits at h
  split at h
  · exact isNumber_of_readFraction h
  · exact isNumber_of_readExponent h
  · exact isNumber_of_readExponent h
  · split at h
    · split at h
      · cases h
        exact .float (isFinite_floatOfPattern_zero true)
      · cases h
        exact .whole _
    · exact isNumber_of_readScale h

theorem isNumber_of_readNumber {negative : Bool} (h : readNumber negative cs = .ok (v, rest)) :
    IsNumber v := by
  unfold readNumber at h
  split at h
  · cases h
  · split at h
    · split at h
      · split at h
        · cases h
        · exact isNumber_of_readAfterDigits h
      · exact isNumber_of_readAfterDigits h
    · split at h
      · exact isNumber_of_readAfterDigits h
      · cases h

structure IsRead (depth : Nat) (v : Json) : Prop where
  ascendingKeys : AscendingKeys v
  finiteFloats : FiniteFloats v
  depth_le : v.depth ≤ depth

theorem IsNumber.isRead (h : IsNumber v) (depth : Nat) : IsRead depth v := by
  cases h with
  | whole w => exact ⟨fun _ h => (nomatch h), fun _ h => (nomatch h), Nat.zero_le _⟩
  | float hx =>
    refine ⟨fun _ h => (nomatch h), fun y hy => ?_, Nat.zero_le _⟩
    cases hy
    exact hx

theorem isRead_null (depth : Nat) : IsRead depth .null :=
  ⟨fun _ h => (nomatch h), fun _ h => (nomatch h), Nat.zero_le _⟩

theorem isRead_bool (depth : Nat) (b : Bool) : IsRead depth (.bool b) :=
  ⟨fun _ h => (nomatch h), fun _ h => (nomatch h), Nat.zero_le _⟩

theorem isRead_string (depth : Nat) (s : String) : IsRead depth (.string s) :=
  ⟨fun _ h => (nomatch h), fun _ h => (nomatch h), Nat.zero_le _⟩

theorem isRead_array {items : List Json} (h : ∀ v ∈ items, IsRead depth v) :
    IsRead (depth + 1) (.array items) := by
  refine ⟨?_, ?_, depth_array_le_iff.2 fun v hv => (h v hv).depth_le⟩
  · rintro ms (_ | ⟨hv, hms⟩)
    exact (h _ hv).ascendingKeys ms hms
  · rintro x (_ | ⟨hv, hx⟩)
    exact (h _ hv).finiteFloats x hx

theorem isRead_object {ms : List (String × Json)} (hms : Ascending ms)
    (h : ∀ m ∈ ms, IsRead depth m.2) :
    IsRead (depth + 1) (.object ms) := by
  refine ⟨?_, finiteFloats_object fun m hm => (h m hm).finiteFloats,
    depth_object_le_iff.2 fun m hm => (h m hm).depth_le⟩
  rintro ns (_ | _ | ⟨hm, hns⟩)
  · exact hms
  · exact (h _ hm).ascendingKeys ns hns

theorem isRead_of_readScalar {c : Char} (h : readScalar fuel c cs = .ok (v, rest)) (depth : Nat) :
    IsRead depth v := by
  unfold readScalar at h
  split at h
  · obtain ⟨_, -, h⟩ := bind_eq_ok_iff.1 h
    cases h
    exact isRead_null depth
  split at h
  · obtain ⟨_, -, h⟩ := bind_eq_ok_iff.1 h
    cases h
    exact isRead_bool depth true
  split at h
  · obtain ⟨_, -, h⟩ := bind_eq_ok_iff.1 h
    cases h
    exact isRead_bool depth false
  split at h
  · exact (isNumber_of_readNumber h).isRead depth
  split at h
  · exact (isNumber_of_readNumber h).isRead depth
  split at h
  · obtain ⟨⟨s, _⟩, -, h⟩ := bind_eq_ok_iff.1 h
    cases h
    exact isRead_string depth s
  · cases h

theorem readItems_invariant {I : σ → Prop} {item : σ → Read σ}
    (hitem : ∀ s cs s' rest, I s → item s cs = .ok (s', rest) → I s')
    {first : Bool} {s s' : σ} (hs : I s)
    (h : readItems item fuel first s cs = .ok (s', rest)) : I s' := by
  induction fuel generalizing first s cs with
  | zero => cases h
  | succ fuel ih =>
    unfold readItems at h
    split at h
    · cases h
    split at h
    · cases h
      exact hs
    split at h
    · obtain ⟨⟨t, cs⟩, ht, h⟩ := bind_eq_ok_iff.1 h
      exact ih (hitem _ _ _ _ hs ht) h
    split at h
    · split at h
      · cases h
      split at h
      · cases h
      · obtain ⟨⟨t, cs⟩, ht, h⟩ := bind_eq_ok_iff.1 h
        exact ih (hitem _ _ _ _ hs ht) h
    · cases h

theorem readMembers_invariant {I : σ → Prop} {member : σ → String → Read σ}
    (hmember : ∀ s key cs s' rest, I s → member s key cs = .ok (s', rest) → I s')
    {first : Bool} {s s' : σ}
    (hs : I s) (h : readMembers member fuel first s cs = .ok (s', rest)) : I s' := by
  have hread : ∀ fuel s cs s' rest, I s → readMember member fuel s cs = .ok (s', rest) → I s' := by
    intro fuel s cs s' rest hs h
    obtain ⟨⟨key, cs⟩, -, h⟩ := bind_eq_ok_iff.1 h
    exact hmember _ _ _ _ _ hs h
  induction fuel generalizing first s cs with
  | zero => cases h
  | succ fuel ih =>
    unfold readMembers at h
    split at h
    · cases h
    split at h
    · cases h
      exact hs
    split at h
    · split at h
      · obtain ⟨⟨t, cs⟩, ht, h⟩ := bind_eq_ok_iff.1 h
        exact ih (hread _ _ _ _ _ hs ht) h
      · cases h
    split at h
    · split at h
      · cases h
      split at h
      · obtain ⟨⟨t, cs⟩, ht, h⟩ := bind_eq_ok_iff.1 h
        exact ih (hread _ _ _ _ _ hs ht) h
      · split at h <;> cases h
    · cases h

theorem isRead_of_readValue (h : readValue fuel depth cs = .ok (v, rest)) : IsRead depth v := by
  induction depth generalizing cs v rest with
  | zero =>
    unfold readValue at h
    split at h
    · cases h
    split at h
    · cases h
    · exact isRead_of_readScalar h 0
  | succ depth ih =>
    unfold readValue at h
    split at h
    · cases h
    split at h
    · obtain ⟨⟨items, cs⟩, hitems, h⟩ := bind_eq_ok_iff.1 h
      cases h
      have hinv : ∀ v ∈ items, IsRead depth v := by
        refine readItems_invariant (I := fun done => ∀ v ∈ done, IsRead depth v) ?_ (by simp) hitems
        intro done cs done' rest hdone hitem
        obtain ⟨⟨v, cs⟩, hv, hitem⟩ := bind_eq_ok_iff.1 hitem
        cases hitem
        exact List.forall_mem_cons.2 ⟨ih hv, hdone⟩
      exact isRead_array fun v hv => hinv v (List.mem_reverse.1 hv)
    split at h
    · obtain ⟨⟨ms, cs⟩, hms, h⟩ := bind_eq_ok_iff.1 h
      cases h
      have hinv : Ascending ms ∧ ∀ m ∈ ms, IsRead depth m.2 := by
        refine readMembers_invariant (I := fun done => Ascending done ∧
          ∀ m ∈ done, IsRead depth m.2) ?_
          ⟨.nil, by simp⟩ hms
        intro done key cs done' rest hdone hmember
        obtain ⟨⟨_, cs⟩, -, hmember⟩ := bind_eq_ok_iff.1 hmember
        obtain ⟨⟨v, cs⟩, hv, hmember⟩ := bind_eq_ok_iff.1 hmember
        cases hmember
        refine ⟨hdone.1.put key v, fun m hm => ?_⟩
        rcases mem_put hm with rfl | hm
        · exact ih hv
        · exact hdone.2 m hm
      exact isRead_object hinv.1 hinv.2
    · exact isRead_of_readScalar h (depth + 1)

theorem isRead_of_parse (h : parse text = .ok v) : IsRead depthLimit v := by
  obtain ⟨⟨u, rest⟩, hread, h⟩ := bind_eq_ok_iff.1 h
  obtain ⟨_, -, h⟩ := bind_eq_ok_iff.1 h
  cases h
  exact isRead_of_readValue hread

/-- Spellings whose characters and floats are read back. -/
structure Spelling.IsFaithful (spelling : Spelling) : Prop where
  char : ∀ c, SpellsChar c (spelling.char c)
  float : ∀ x : Float, x.isFinite = true → Renders (.float x) (spelling.float x)

theorem isSpace_nil : IsSpace [] := by
  intro c hc
  exact absurd hc List.not_mem_nil

section Written

variable {spelling : Spelling}

theorem rendersMember_write {key : String} (hspelling : spelling.IsFaithful)
    (hv : Renders v (write spelling v)) :
    RendersMember Renders (key, v) (writeString spelling key ++ ':' :: write spelling v) :=
  .member (spellsString_writeString hspelling.char key) isSpace_nil isSpace_nil hv

mutual

theorem renders_write (hspelling : spelling.IsFaithful) : (v : Json) →
    FiniteFloats v → Renders v (write spelling v)
  | .null, _ => .null
  | .bool true, _ => .yes
  | .bool false, _ => .no
  | .whole w, _ => renders_writeWhole w
  | .float x, h => hspelling.float x (h x (.self _))
  | .string s, _ => .string (spellsString_writeString hspelling.char s)
  | .array [], _ => .array (.none isSpace_nil)
  | .array (v :: rest), h => by
    have hv := renders_write hspelling v fun x hx => h x (.item List.mem_cons_self hx)
    have hrest := rendersRest_writeItems hspelling rest fun u hu x hx =>
      h x (.item (List.mem_cons_of_mem v hu) hx)
    exact .array (.some isSpace_nil hv isSpace_nil hrest)
  | .object [], _ => .object (.refl _) (.none isSpace_nil)
  | .object ((key, v) :: rest), h => by
    have hv := renders_write hspelling v fun x hx =>
      h x (.member (List.mem_cons_self (a := (key, v))) hx)
    have hrest := rendersRest_writeMembers hspelling rest fun m hm x hx =>
      h x (.member (List.mem_cons_of_mem (key, v) hm) hx)
    have htext : write spelling (.object ((key, v) :: rest)) =
        '\x7b' :: ([] ++ ((writeString spelling key ++ ':' :: write spelling v) ++
          ([] ++ writeMembers spelling rest))) := by
      simp [write]
    rw [htext]
    exact .object (.refl _) (.some isSpace_nil (rendersMember_write hspelling hv) isSpace_nil hrest)

theorem rendersRest_writeItems (hspelling : spelling.IsFaithful) :
    (items : List Json) → (∀ v ∈ items, FiniteFloats v) →
    RendersRest Renders ']' items (writeItems spelling items)
  | [], _ => .close
  | v :: rest, h => by
    have hv := renders_write hspelling v (h v List.mem_cons_self)
    have hrest := rendersRest_writeItems hspelling rest fun u hu => h u (List.mem_cons_of_mem v hu)
    exact .part isSpace_nil hv isSpace_nil hrest

theorem rendersRest_writeMembers (hspelling : spelling.IsFaithful) :
    (ms : List (String × Json)) → (∀ m ∈ ms, FiniteFloats m.2) →
      RendersRest (RendersMember Renders) '\x7d' ms (writeMembers spelling ms)
  | [], _ => .close
  | (key, v) :: rest, h => by
    have hv := renders_write hspelling v (h (key, v) List.mem_cons_self)
    have hrest := rendersRest_writeMembers hspelling rest fun m hm =>
      h m (List.mem_cons_of_mem (key, v) hm)
    have htext : writeMembers spelling ((key, v) :: rest) =
        ',' :: ([] ++ ((writeString spelling key ++ ':' :: write spelling v) ++
          ([] ++ writeMembers spelling rest))) := by
      simp [writeMembers]
    rw [htext]
    exact .part isSpace_nil (rendersMember_write hspelling hv) isSpace_nil hrest

end

end Written

theorem isFaithful_canonical : Spelling.canonical.IsFaithful where
  char := spellsChar_canonicalChar
  float := fun x hx => by
    simp only [Spelling.canonical, finiteChars, hx, if_true]
    exact renders_floatChars isJsonLayout_canonicalLayout hx

/-- What was read is written as a text that is read alike. -/
theorem parse_write {spelling : Spelling} (hspelling : spelling.IsFaithful)
    (h : parse text = .ok v) :
    parse (write spelling v) = .ok v := by
  have hread := isRead_of_parse h
  have hrenders : RendersDocument v ([] ++ (write spelling v ++ [])) :=
    .document isSpace_nil (renders_write hspelling v hread.finiteFloats) isSpace_nil
  rw [List.nil_append, List.append_nil] at hrenders
  rw [parse_of_renders hrenders hread.depth_le hread.ascendingKeys.distinctKeys,
    sorted_eq_self v hread.ascendingKeys]

end Calculator.Json
