import Calculator.Proofs.Json.RoundTrip

/-!
# Documents laid out

A document that is laid out has its members in the order in which it lists them, at every depth.
Read back it is the value of the document, also where a key is listed twice.
-/

namespace Calculator.Json

variable {spelling : Spelling} {v : Json} {items : List Json} {ms : List (String × Json)}
  {t rest : List Char} {fuel depth : Nat}

/-- The ways to write a document with the members of every object in their order. -/
inductive RendersInOrder : Json → List Char → Prop
  | leaf {v : Json} {t : List Char} (hleaf : v.depth = 0) (h : Renders v t) : RendersInOrder v t
  | array {items : List Json} {t : List Char} (h : RendersParts RendersInOrder ']' items t) :
    RendersInOrder (.array items) ('[' :: t)
  | object {ms : List (String × Json)} {t : List Char}
      (h : RendersParts (RendersMember RendersInOrder) '\x7d' ms t) :
    RendersInOrder (.object ms) ('\x7b' :: t)

theorem RendersInOrder.head (h : RendersInOrder v t) :
    ∃ c cs, t = c :: cs ∧ isSpace c = false ∧ c ≠ ']' := by
  cases h with
  | leaf hleaf h => exact h.head
  | array h => exact ⟨_, _, rfl, by decide, by decide⟩
  | object h => exact ⟨_, _, rfl, by decide, by decide⟩

theorem readValue_of_rendersInOrder (h : RendersInOrder v t) (hdepth : v.depth ≤ depth)
    (hfuel : t.length < fuel)
    (hrest : EndsNumber rest) : readValue fuel depth (t ++ rest) = .ok (v.sorted, rest) := by
  -- The depth that is left to the reader bounds the depth of the value; lists and objects need one
  -- level more.
  induction depth generalizing v t rest with
  | zero =>
    cases h with
    | leaf hleaf h =>
      rw [sorted_of_depth_eq_zero hleaf]
      exact readValue_leaf h hleaf hfuel hrest
    | array h => exact absurd hdepth (by simp [Json.depth])
    | object h => exact absurd hdepth (by simp [Json.depth])
  | succ depth ih =>
    cases h with
    | leaf hleaf h =>
      rw [sorted_of_depth_eq_zero hleaf]
      exact readValue_leaf h hleaf hfuel hrest
    | array h =>
      refine readValue_items (fun _ _ hu => hu.head) ?_ h (Nat.lt_of_succ_lt hfuel) rest
      intro u hu s rest hs hlength hrest
      exact ih hs (depth_array_le_iff.1 hdepth u hu) hlength hrest
    | object h =>
      refine readValue_members ?_ h (Nat.lt_of_succ_lt hfuel) rest
      intro m hm s rest hs hlength hrest
      exact ih hs (depth_object_le_iff.1 hdepth m hm) hlength hrest

theorem parse_of_rendersInOrder (h : RendersInOrder v t) (hdepth : v.depth ≤ depthLimit) :
    parse t = .ok v.sorted := by
  have hread := readValue_of_rendersInOrder h hdepth (Nat.lt_succ_self t.length) endsNumber_nil
  rw [List.append_nil] at hread
  simp only [parse, hread, bind, Except.bind]
  rfl

theorem isSpace_newline (depth : Nat) : IsSpace (newline depth) := by
  intro c hc
  rcases List.mem_cons.1 hc with rfl | hc
  · rfl
  · rw [List.eq_of_mem_replicate hc]
    rfl

theorem rendersMember_inOrder (hspelling : spelling.IsFaithful) (key : String)
    (hv : RendersInOrder v t) :
    RendersMember RendersInOrder (key, v) (writeString spelling key ++ ':' :: ' ' :: t) := by
  have hspace : IsSpace [' '] := by
    intro c hc
    rw [List.mem_singleton.1 hc]
    rfl
  exact .member (spellsString_writeString hspelling.char key) isSpace_nil hspace hv

mutual

theorem rendersInOrder_layOut (hspelling : spelling.IsFaithful) :
    (depth : Nat) → (v : Json) → FiniteFloats v → RendersInOrder v (layOut spelling depth v)
  | _, .null, _ => .leaf rfl .null
  | _, .bool true, _ => .leaf rfl .yes
  | _, .bool false, _ => .leaf rfl .no
  | _, .whole w, _ => .leaf rfl (renders_writeWhole w)
  | _, .float x, h => .leaf rfl (hspelling.float x (h x (.self _)))
  | _, .string s, _ => .leaf rfl (.string (spellsString_writeString hspelling.char s))
  | _, .array [], _ => .array (.none isSpace_nil)
  | depth, .array (v :: rest), h => by
    have hv := rendersInOrder_layOut hspelling (depth + 1) v fun x hx =>
      h x (.item List.mem_cons_self hx)
    obtain ⟨after, u, htext, hafter, hrest⟩ :=
      rendersRest_layOutItems hspelling depth rest fun w hw x hx =>
      h x (.item (List.mem_cons_of_mem v hw) hx)
    simp only [layOut, htext, List.cons_append, List.append_assoc]
    exact .array (.some (isSpace_newline (depth + 1)) hv hafter hrest)
  | _, .object [], _ => .object (.none isSpace_nil)
  | depth, .object ((key, v) :: rest), h => by
    have hv := rendersInOrder_layOut hspelling (depth + 1) v fun x hx =>
      h x (.member (List.mem_cons_self (a := (key, v))) hx)
    obtain ⟨after, u, htext, hafter, hrest⟩ :=
      rendersRest_layOutMembers hspelling depth rest fun m hm x hx =>
      h x (.member (List.mem_cons_of_mem (key, v) hm) hx)
    have hmember := rendersMember_inOrder hspelling key hv
    have hmembers := RendersParts.some (isSpace_newline (depth + 1)) hmember hafter hrest
    simp only [layOut, htext, List.cons_append, List.append_assoc] at hmembers ⊢
    exact .object hmembers

theorem rendersRest_layOutItems (hspelling : spelling.IsFaithful) :
    (depth : Nat) → (items : List Json) → (∀ v ∈ items, FiniteFloats v) →
      ∃ after u, layOutItems spelling depth items = after ++ u ∧ IsSpace after ∧
        RendersRest RendersInOrder ']' items u
  | depth, [], _ => ⟨newline depth, [']'], by rw [layOutItems], isSpace_newline depth, .close⟩
  | depth, v :: rest, h => by
    have hv := rendersInOrder_layOut hspelling (depth + 1) v (h v List.mem_cons_self)
    obtain ⟨after, u, htext, hafter, hrest⟩ :=
      rendersRest_layOutItems hspelling depth rest fun w hw =>
      h w (List.mem_cons_of_mem v hw)
    refine ⟨[], _, ?_, isSpace_nil, .part (isSpace_newline (depth + 1)) hv hafter hrest⟩
    simp [layOutItems, htext]

theorem rendersRest_layOutMembers (hspelling : spelling.IsFaithful) :
    (depth : Nat) → (ms : List (String × Json)) → (∀ m ∈ ms, FiniteFloats m.2) →
      ∃ after u, layOutMembers spelling depth ms = after ++ u ∧ IsSpace after ∧
        RendersRest (RendersMember RendersInOrder) '\x7d' ms u
  | depth, [], _ => ⟨newline depth, ['\x7d'], by rw [layOutMembers], isSpace_newline depth, .close⟩
  | depth, (key, v) :: rest, h => by
    have hv := rendersInOrder_layOut hspelling (depth + 1) v (h (key, v) List.mem_cons_self)
    obtain ⟨after, u, htext, hafter, hrest⟩ :=
      rendersRest_layOutMembers hspelling depth rest fun m hm =>
      h m (List.mem_cons_of_mem (key, v) hm)
    have hmember := rendersMember_inOrder hspelling key hv
    refine ⟨[], _, ?_, isSpace_nil, .part (isSpace_newline (depth + 1)) hmember hafter hrest⟩
    simp [layOutMembers, htext]

end

theorem isJsonLayout_numberLayout : IsJsonLayout numberLayout :=
  ⟨rfl, .inr rfl⟩

theorem isFaithful_plain : Spelling.plain.IsFaithful where
  char := spellsChar_plainChar
  float := fun x hx => by
    simp only [Spelling.plain, finiteChars, hx, if_true]
    exact renders_floatChars isJsonLayout_numberLayout hx

theorem rendersInOrder_prettyText (h : FiniteFloats v) : RendersInOrder v v.prettyText.toList := by
  rw [prettyText, String.toList_ofList]
  exact rendersInOrder_layOut isFaithful_plain 0 v h

end Calculator.Json
