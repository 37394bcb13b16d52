import Calculator.Proofs.Json.Numeral
import Calculator.Proofs.Json.Spelling
import Calculator.Proofs.Json.Value

/-!
# Renderings of a document

A value may be rendered with any space between its tokens, with the members of its objects in any
order, and with any spelling of its strings and numbers. Whatever the rendering, the text is read as
one value.
-/

namespace Calculator.Json

def IsSpace (w : List Char) : Prop :=
  ∀ c ∈ w, isSpace c = true

section Parts

variable {α : Type} (R : α → List Char → Prop) (close : Char)

inductive RendersRest : List α → List Char → Prop
  | close : RendersRest [] [close]
  | part {a : α} {as : List α} {before t after u : List Char}
      (hbefore : IsSpace before) (ha : R a t)
    (hafter : IsSpace after) (has : RendersRest as u) :
    RendersRest (a :: as) (',' :: (before ++ (t ++ (after ++ u))))

inductive RendersParts : List α → List Char → Prop
  | none {w : List Char} (hw : IsSpace w) : RendersParts [] (w ++ [close])
  | some {a : α} {as : List α} {before t after u : List Char}
      (hbefore : IsSpace before) (ha : R a t)
    (hafter : IsSpace after) (has : RendersRest R close as u) :
    RendersParts (a :: as) (before ++ (t ++ (after ++ u)))

end Parts

inductive RendersMember (R : Json → List Char → Prop) : String × Json → List Char → Prop
  | member {key : String} {v : Json} {k before after t : List Char} (hkey : SpellsString key k)
    (hbefore : IsSpace before) (hafter : IsSpace after) (hv : R v t) :
    RendersMember R (key, v) (k ++ (before ++ ':' :: (after ++ t)))

/-- The ways to write a value, without the space around it. -/
inductive Renders : Json → List Char → Prop
  | null : Renders .null ['n', 'u', 'l', 'l']
  | yes : Renders (.bool true) ['t', 'r', 'u', 'e']
  | no : Renders (.bool false) ['f', 'a', 'l', 's', 'e']
  | number {v : Json} {n : Numeral} (h : n.value? = some v) : Renders v n.chars
  | string {s : String} {t : List Char} (h : SpellsString s t) : Renders (.string s) t
  | array {items : List Json} {t : List Char} (h : RendersParts Renders ']' items t) :
    Renders (.array items) ('[' :: t)
  | object {ms order : List (String × Json)} {t : List Char} (horder : order.Perm ms)
    (h : RendersParts (RendersMember Renders) '\x7d' order t) : Renders (.object ms) ('\x7b' :: t)

inductive RendersDocument (v : Json) : List Char → Prop
  | document {before t after : List Char} (hbefore : IsSpace before)
      (ht : Renders v t) (hafter : IsSpace after) :
    RendersDocument v (before ++ (t ++ after))

variable {c : Char} {w cs rest : List Char}

theorem skipSpace_append (hw : IsSpace w) (cs : List Char) : skipSpace (w ++ cs) = skipSpace cs :=
  List.dropWhile_append_of_pos hw

theorem skipSpace_cons (hc : isSpace c = false) (cs : List Char) : skipSpace (c :: cs) = c :: cs :=
  List.dropWhile_cons_of_neg (by simp [hc])

theorem endsNumber_of_isSpace (hc : isSpace c = true) : EndsNumber (c :: cs) := by
  simp only [isSpace, Bool.or_eq_true, beq_iff_eq] at hc
  rcases hc with ((rfl | rfl) | rfl) | rfl <;> exact endsNumber_cons (by decide)

theorem EndsNumber.append (hw : IsSpace w) (h : EndsNumber cs) : EndsNumber (w ++ cs) := by
  cases w with
  | nil => exact h
  | cons c w => exact endsNumber_of_isSpace (hw c List.mem_cons_self)

theorem EndsNumber.of_isSpace (hw : IsSpace w) : EndsNumber w := by
  rw [← List.append_nil w]
  exact endsNumber_nil.append hw

section Parts

variable {α σ : Type} {R : α → List Char → Prop} {close : Char} {as : List α}
  {u : List Char} {fuel bound : Nat}

theorem RendersRest.endsNumber (hclose : close = ']' ∨ close = '\x7d')
    (h : RendersRest R close as u) (rest : List Char) : EndsNumber (u ++ rest) := by
  cases h with
  | close => rcases hclose with rfl | rfl <;> exact endsNumber_cons (by decide)
  | part => exact endsNumber_cons (by decide)

theorem RendersRest.length_pos (h : RendersRest R close as u) : 0 < u.length := by
  cases h <;> simp

theorem readItems_rest {item : σ → Read σ} {step : σ → α → σ}
    (hhead : ∀ a t, R a t → ∃ c cs, t = c :: cs ∧ isSpace c = false ∧ c ≠ ']')
    (h : RendersRest R ']' as u)
    (hitem : ∀ a ∈ as, ∀ s t rest, R a t → t.length < bound → EndsNumber rest →
      item s (t ++ rest) = .ok (step s a, rest))
    (hfuel : u.length ≤ fuel) (hbound : u.length ≤ bound) (hw : IsSpace w)
    (s : σ) (rest : List Char) :
    readItems item fuel false s (w ++ (u ++ rest)) = .ok (as.foldl step s, rest) := by
  induction h generalizing fuel s w with
  | close =>
    obtain ⟨fuel, rfl⟩ := Nat.exists_eq_add_one_of_ne_zero (Nat.ne_of_gt hfuel)
    rw [readItems, skipSpace_append hw, List.singleton_append, skipSpace_cons (by decide)]
    rfl
  | @part a as before t after u hbefore ha hafter has ih =>
    obtain ⟨c, cs, rfl, hc, hclose⟩ := hhead a t ha
    simp only [List.length_cons, List.length_append] at hfuel hbound
    obtain ⟨fuel, rfl⟩ := Nat.exists_eq_add_one_of_ne_zero (Nat.ne_of_gt (Nat.zero_lt_of_lt hfuel))
    have hfirst := hitem a List.mem_cons_self s (c :: cs) (after ++ (u ++ rest)) ha (by simp; omega)
      ((has.endsNumber (.inl rfl) rest).append hafter)
    rw [readItems, skipSpace_append hw, List.cons_append, skipSpace_cons (by decide)]
    simp only [List.append_assoc, List.cons_append] at hfirst ⊢
    simp only [skipSpace_append hbefore, skipSpace_cons hc, hclose, if_false,
      hfirst, bind, Except.bind]
    exact ih (fun b hb => hitem b (List.mem_cons_of_mem a hb)) (by omega)
      (by omega) hafter (step s a)

theorem readItems_parts {item : σ → Read σ} {step : σ → α → σ}
    (hhead : ∀ a t, R a t → ∃ c cs, t = c :: cs ∧ isSpace c = false ∧ c ≠ ']')
    (h : RendersParts R ']' as u)
    (hitem : ∀ a ∈ as, ∀ s t rest, R a t → t.length < bound → EndsNumber rest →
      item s (t ++ rest) = .ok (step s a, rest))
    (hfuel : u.length ≤ fuel) (hbound : u.length ≤ bound) (s : σ) (rest : List Char) :
    readItems item fuel true s (u ++ rest) = .ok (as.foldl step s, rest) := by
  cases h with
  | @none w hw =>
    rw [List.length_append] at hfuel
    obtain ⟨fuel, rfl⟩ := Nat.exists_eq_add_one_of_ne_zero
      (Nat.ne_of_gt (Nat.lt_of_lt_of_le (by simp) hfuel))
    rw [readItems, List.append_assoc, skipSpace_append hw, List.singleton_append,
      skipSpace_cons (by decide)]
    rfl
  | @some a as before t after u hbefore ha hafter has =>
    obtain ⟨c, cs, rfl, hc, hclose⟩ := hhead a t ha
    have hpos := has.length_pos
    simp only [List.length_cons, List.length_append] at hfuel hbound
    obtain ⟨fuel, rfl⟩ := Nat.exists_eq_add_one_of_ne_zero (n := fuel) (by omega)
    have hfirst := hitem a List.mem_cons_self s (c :: cs) (after ++ (u ++ rest)) ha (by simp; omega)
      ((has.endsNumber (.inl rfl) rest).append hafter)
    simp only [List.append_assoc, List.cons_append] at hfirst ⊢
    simp only [readItems, skipSpace_append hbefore, skipSpace_cons hc,
      hclose, if_false, if_true, hfirst, bind, Except.bind]
    exact readItems_rest hhead has (fun b hb => hitem b (List.mem_cons_of_mem a hb))
      (by omega) (by omega) hafter
      (step s a) rest

end Parts

section Members

variable {σ : Type} {R : Json → List Char → Prop} {member : σ → String → Read σ} {m : String × Json}
  {ms : List (String × Json)} {s s' : σ} {u : List Char} {fuel bound : Nat}

/-- Reading a member leads from one state to the next, however its value is rendered. -/
def MemberStep (R : Json → List Char → Prop) (bound : Nat) (member : σ → String → Read σ)
    (m : String × Json) (s s' : σ) : Prop :=
  ∀ before after t rest, IsSpace before → IsSpace after → R m.2 t → t.length < bound →
    EndsNumber rest →
    member s m.1 (before ++ ':' :: (after ++ (t ++ rest))) = .ok (s', rest)

inductive MemberRun (R : Json → List Char → Prop) (bound : Nat) (member : σ → String → Read σ) :
    List (String × Json) → σ → σ → Prop
  | nil (s : σ) : MemberRun R bound member [] s s
  | cons {m : String × Json} {ms : List (String × Json)} {s s' s'' : σ}
      (hm : MemberStep R bound member m s s')
    (hms : MemberRun R bound member ms s' s'') : MemberRun R bound member (m :: ms) s s''

theorem memberRun_foldl {step : σ → String × Json → σ}
    (h : ∀ m ∈ ms, ∀ s, MemberStep R bound member m s (step s m))
    (s : σ) : MemberRun R bound member ms s (ms.foldl step s) := by
  induction ms generalizing s with
  | nil => exact .nil s
  | cons m ms ih => exact .cons (h m List.mem_cons_self s) (ih
      (fun n hn => h n (List.mem_cons_of_mem m hn)) (step s m))

theorem MemberRun.append {ms' : List (String × Json)} {s'' : σ}
    (h : MemberRun R bound member ms s s')
    (h' : MemberRun R bound member ms' s' s'') : MemberRun R bound member (ms ++ ms') s s'' := by
  induction h with
  | nil s => exact h'
  | cons hm hms ih => exact .cons hm (ih h')

theorem readMember_member {t : List Char} (h : RendersMember R m t)
    (hmember : MemberStep R bound member m s s')
    (hfuel : t.length ≤ fuel + 1) (hbound : t.length < bound) (hrest : EndsNumber rest) :
    ∃ cs, t = '"' :: cs ∧ readMember member fuel s (cs ++ rest) = .ok (s', rest) := by
  obtain ⟨⟨hkey⟩, hbefore, hafter, hv⟩ := h
  next key v before after t u =>
  simp only [List.length_cons, List.length_append, List.length_nil] at hfuel hbound
  refine ⟨u ++ ['"'] ++ (before ++ ':' :: (after ++ t)), rfl, ?_⟩
  have hkeyFuel : u.length < fuel := by omega
  have hstring := readString_string hkey hkeyFuel (before ++ ':' :: (after ++ (t ++ rest)))
  have hvalue := hmember before after t rest hbefore hafter hv (by omega) hrest
  simp only [List.append_assoc, List.cons_append, List.nil_append, readMember,
    hstring, bind, Except.bind]
  exact hvalue

theorem readMembers_rest (h : RendersRest (RendersMember R) '\x7d' ms u)
    (hrun : MemberRun R bound member ms s s')
    (hfuel : u.length ≤ fuel) (hbound : u.length ≤ bound) (hw : IsSpace w) (rest : List Char) :
    readMembers member fuel false s (w ++ (u ++ rest)) = .ok (s', rest) := by
  induction h generalizing fuel s w with
  | close =>
    cases hrun
    obtain ⟨fuel, rfl⟩ := Nat.exists_eq_add_one_of_ne_zero (Nat.ne_of_gt hfuel)
    rw [readMembers, skipSpace_append hw, List.singleton_append, skipSpace_cons (by decide)]
    rfl
  | @part m ms before t after u hbefore hm hafter has ih =>
    cases hrun with
    | cons hstep hrun =>
    simp only [List.length_cons, List.length_append] at hfuel hbound
    obtain ⟨fuel, rfl⟩ := Nat.exists_eq_add_one_of_ne_zero (Nat.ne_of_gt (Nat.zero_lt_of_lt hfuel))
    have hmemberFuel : t.length ≤ fuel + 1 := by omega
    obtain ⟨cs, rfl, hfirst⟩ := readMember_member hm hstep hmemberFuel (by omega)
      ((has.endsNumber (.inr rfl) rest).append hafter)
    rw [List.length_cons] at hfuel hbound
    rw [readMembers, skipSpace_append hw, List.cons_append, skipSpace_cons (by decide)]
    simp only [List.append_assoc, List.cons_append] at hfirst ⊢
    simp only [skipSpace_append hbefore, skipSpace_cons (c := '"') (by decide),
      hfirst, bind, Except.bind]
    exact ih hrun (by omega) (by omega) hafter

theorem readMembers_parts (h : RendersParts (RendersMember R) '\x7d' ms u)
    (hrun : MemberRun R bound member ms s s')
    (hfuel : u.length ≤ fuel) (hbound : u.length ≤ bound) (rest : List Char) :
    readMembers member fuel true s (u ++ rest) = .ok (s', rest) := by
  cases h with
  | @none w hw =>
    cases hrun
    rw [List.length_append] at hfuel
    obtain ⟨fuel, rfl⟩ := Nat.exists_eq_add_one_of_ne_zero
      (Nat.ne_of_gt (Nat.lt_of_lt_of_le (by simp) hfuel))
    rw [readMembers, List.append_assoc, skipSpace_append hw, List.singleton_append,
      skipSpace_cons (by decide)]
    rfl
  | @some m ms before t after u hbefore hm hafter has =>
    cases hrun with
    | cons hstep hrun =>
    simp only [List.length_append] at hfuel hbound
    have hpos := has.length_pos
    obtain ⟨fuel, rfl⟩ := Nat.exists_eq_add_one_of_ne_zero (n := fuel) (by omega)
    have hmemberFuel : t.length ≤ fuel + 1 := by omega
    obtain ⟨cs, rfl, hfirst⟩ := readMember_member hm hstep hmemberFuel (by omega)
      ((has.endsNumber (.inr rfl) rest).append hafter)
    rw [List.length_cons] at hfuel hbound
    simp only [List.append_assoc, List.cons_append] at hfirst ⊢
    simp only [readMembers, skipSpace_append hbefore, skipSpace_cons (c := '"') (by decide),
      if_true, hfirst, bind, Except.bind]
    exact readMembers_rest has hrun (by omega) (by omega) hafter rest

end Members

variable {v : Json} {t : List Char} {fuel depth : Nat}

theorem readValue_of_isSpace (hw : IsSpace w) (cs : List Char) :
    readValue fuel depth (w ++ cs) = readValue fuel depth cs := by
  cases depth <;> simp only [readValue, skipSpace_append hw]

theorem readValue_list (cs : List Char) :
    readValue fuel (depth + 1) ('[' :: cs) = do
      let (items, rest) ← readItems (readItem (readValue fuel depth)) fuel true [] cs
      return (.array items.reverse, rest) := by
  rw [readValue, skipSpace_cons (by decide)]
  rfl

theorem readValue_object (cs : List Char) :
    readValue fuel (depth + 1) ('\x7b' :: cs) = do
      let (ms, rest) ← readMembers (readEntry (readValue fuel depth)) fuel true [] cs
      return (.object ms, rest) := by
  rw [readValue, skipSpace_cons (by decide)]
  rfl

theorem readValue_scalar (hc : isSpace c = false) (hlist : c ≠ '[') (hobject : c ≠ '\x7b')
    (cs : List Char) :
    readValue fuel depth (c :: cs) = readScalar fuel c cs := by
  cases depth <;> simp [readValue, skipSpace_cons hc, hlist, hobject]

theorem not_structural (hc : c = '-' ∨ isDigit c = true) :
    isSpace c = false ∧ c ≠ ']' ∧ c ≠ '[' ∧ c ≠ '\x7b' := by
  have hne : ∀ d, d ≠ '-' → isDigit d = false → c ≠ d := by
    rintro d hminus hdigit rfl
    rcases hc with hc | hc
    · exact hminus hc
    · exact absurd hc (by simp [hdigit])
  refine ⟨?_, hne _ (by decide) rfl, hne _ (by decide) rfl, hne _ (by decide) rfl⟩
  simp [isSpace, hne ' ' (by decide) rfl, hne '\n' (by decide) rfl, hne '\t' (by decide) rfl,
    hne '\r' (by decide) rfl]

theorem Renders.head (h : Renders v t) : ∃ c cs, t = c :: cs ∧ isSpace c = false ∧ c ≠ ']' := by
  cases h with
  | null => exact ⟨_, _, rfl, by decide, by decide⟩
  | yes => exact ⟨_, _, rfl, by decide, by decide⟩
  | no => exact ⟨_, _, rfl, by decide, by decide⟩
  | array => exact ⟨_, _, rfl, by decide, by decide⟩
  | object => exact ⟨_, _, rfl, by decide, by decide⟩
  | string h =>
    obtain ⟨h⟩ := h
    exact ⟨_, _, rfl, by decide, by decide⟩
  | number h =>
    obtain ⟨c, cs, htext, hc, -⟩ := readScalar_numeral h endsNumber_nil 0
    exact ⟨c, cs, htext, (not_structural hc).1, (not_structural hc).2.1⟩

theorem readValue_leaf (h : Renders v t) (hleaf : v.depth = 0) (hfuel : t.length < fuel)
    (hrest : EndsNumber rest) :
    readValue fuel depth (t ++ rest) = .ok (v, rest) := by
  cases h with
  | null => exact readValue_scalar (by decide) (by decide) (by decide) _
  | yes => exact readValue_scalar (by decide) (by decide) (by decide) _
  | no => exact readValue_scalar (by decide) (by decide) (by decide) _
  | array => exact absurd hleaf (by simp [Json.depth])
  | object => exact absurd hleaf (by simp [Json.depth])
  | string h =>
    obtain @⟨u, h⟩ := h
    simp only [List.length_append, List.length_cons, List.length_nil] at hfuel
    simp only [List.cons_append, List.append_assoc, List.nil_append]
    rw [readValue_scalar (by decide) (by decide) (by decide)]
    have hstringFuel : u.length < fuel := by omega
    simp [readScalar, isDigit, readString_string h hstringFuel, bind,
      Except.bind, pure, Except.pure]
  | number h =>
    obtain ⟨c, cs, htext, hc, hread⟩ := readScalar_numeral h hrest fuel
    obtain ⟨hspace, -, hlist, hobject⟩ := not_structural hc
    rw [htext, List.cons_append, readValue_scalar hspace hlist hobject, hread]

theorem sorted_of_depth_eq_zero (h : v.depth = 0) : v.sorted = v := by
  cases v <;> first | rfl | simp [Json.depth] at h

theorem readColon_append (hw : IsSpace w) (cs : List Char) :
    readColon (w ++ ':' :: cs) = .ok ((), cs) := by
  rw [readColon, skipSpace_append hw, skipSpace_cons (by decide)]
  rfl

section Parts

variable {R : Json → List Char → Prop} {items : List Json} {ms : List (String × Json)}

theorem readValue_items (hhead : ∀ u s, R u s → ∃ c cs, s = c :: cs ∧ isSpace c = false ∧ c ≠ ']')
    (hread : ∀ u ∈ items, ∀ s rest, R u s → s.length < fuel → EndsNumber rest →
      readValue fuel depth (s ++ rest) = .ok (u.sorted, rest))
    (h : RendersParts R ']' items t) (hfuel : t.length < fuel) (rest : List Char) :
    readValue fuel (depth + 1) ('[' :: (t ++ rest)) = .ok ((Json.array items).sorted, rest) := by
  have hitem : ∀ u ∈ items, ∀ done s rest, R u s → s.length < fuel → EndsNumber rest →
      readItem (readValue fuel depth) done (s ++ rest) = .ok (u.sorted :: done, rest) := by
    intro u hu done s rest hs hlength hrest
    simp only [readItem, hread u hu s rest hs hlength hrest, bind, Except.bind, pure, Except.pure]
  have hitems := readItems_parts hhead h hitem (Nat.le_of_lt hfuel) (Nat.le_of_lt hfuel) [] rest
  simp only [readValue_list, hitems, List.foldl_flip_cons_eq_append,
    List.append_nil, List.reverse_reverse, bind, Except.bind, pure, Except.pure]
  rw [sorted, sortedItems_eq_map]

theorem readValue_members (hread : ∀ m ∈ ms, ∀ s rest, R m.2 s → s.length < fuel → EndsNumber rest →
      readValue fuel depth (s ++ rest) = .ok (m.2.sorted, rest))
    (h : RendersParts (RendersMember R) '\x7d' ms t) (hfuel : t.length < fuel) (rest : List Char) :
    readValue fuel (depth + 1) ('\x7b' :: (t ++ rest)) = .ok ((Json.object ms).sorted, rest) := by
  have hmember : ∀ m ∈ ms, ∀ done, MemberStep R fuel (readEntry (readValue fuel depth)) m done
      (put m.1 m.2.sorted done) := by
    intro m hm done before after s rest hbefore hafter hs hlength hrest
    simp only [readEntry, readColon_append hbefore, readValue_of_isSpace hafter,
      hread m hm s rest hs hlength hrest, bind, Except.bind, pure, Except.pure]
  have hmembers := readMembers_parts h (memberRun_foldl hmember []) (Nat.le_of_lt hfuel)
    (Nat.le_of_lt hfuel) rest
  have hfold : ms.foldl (fun done m => put m.1 m.2.sorted done) [] = putAll (sortedMembers ms) := by
    rw [sortedMembers_eq_map, putAll, List.foldl_map]
  simp only [readValue_object, hmembers, hfold, bind, Except.bind, pure, Except.pure]
  rw [sorted, ofMembers]

end Parts

/-- Values up to a depth are read from every rendering. -/
def ReadsRenderings (fuel depth : Nat) : Prop :=
  ∀ v t rest, Renders v t → v.depth ≤ depth → DistinctKeys v → t.length < fuel → EndsNumber rest →
    readValue fuel depth (t ++ rest) = .ok (v.sorted, rest)

theorem readValue_renders_array {items : List Json} (hread : ReadsRenderings fuel depth)
    (h : RendersParts Renders ']' items t) (hdepth : (Json.array items).depth ≤ depth + 1)
    (hkeys : DistinctKeys (.array items)) (hfuel : t.length < fuel) (rest : List Char) :
    readValue fuel (depth + 1) ('[' :: (t ++ rest)) = .ok ((Json.array items).sorted, rest) := by
  refine readValue_items (fun _ _ hu => hu.head) ?_ h hfuel rest
  intro u hu s rest hs hlength hrest
  have hdepth' := depth_array_le_iff.1 hdepth u hu
  have hkeys' : DistinctKeys u := fun ms hms => hkeys ms (.item hu hms)
  exact hread u s rest hs hdepth' hkeys' hlength hrest

theorem readValue_renders_object {ms order : List (String × Json)}
    (hread : ReadsRenderings fuel depth)
    (horder : order.Perm ms) (h : RendersParts (RendersMember Renders) '\x7d' order t)
    (hdepth : (Json.object ms).depth ≤ depth + 1) (hkeys : DistinctKeys (.object ms))
    (hfuel : t.length < fuel) (rest : List Char) :
    readValue fuel (depth + 1) ('\x7b' :: (t ++ rest)) = .ok ((Json.object ms).sorted, rest) := by
  -- The members are put in the order of the text, which makes no difference as their keys are
  -- distinct.
  rw [← sorted_object_of_perm horder (hkeys ms (.self _))]
  refine readValue_members ?_ h hfuel rest
  intro m hm s rest hs hlength hrest
  have hm' := horder.mem_iff.1 hm
  have hdepth' := depth_object_le_iff.1 hdepth m hm'
  have hkeys' : DistinctKeys m.2 := fun ns hns => hkeys ns (.member hm' hns)
  exact hread m.2 s rest hs hdepth' hkeys' hlength hrest

theorem readsRenderings (fuel depth : Nat) : ReadsRenderings fuel depth := by
  induction depth with
  | zero =>
    intro v t rest h hdepth _ hfuel hrest
    have hleaf : v.depth = 0 := Nat.le_zero.1 hdepth
    rw [sorted_of_depth_eq_zero hleaf]
    exact readValue_leaf h hleaf hfuel hrest
  | succ depth ih =>
    intro v t rest h hdepth hkeys hfuel hrest
    by_cases hleaf : v.depth = 0
    · rw [sorted_of_depth_eq_zero hleaf]
      exact readValue_leaf h hleaf hfuel hrest
    cases h with
    | null => exact absurd rfl hleaf
    | yes => exact absurd rfl hleaf
    | no => exact absurd rfl hleaf
    | string => exact absurd rfl hleaf
    | number h => rcases Numeral.value?_eq_some h with ⟨w, rfl⟩ |
        ⟨x, rfl⟩ <;> exact absurd rfl hleaf
    | array h => exact readValue_renders_array ih h hdepth hkeys (Nat.lt_of_succ_lt hfuel) rest
    | object horder h =>
      exact readValue_renders_object ih horder h hdepth hkeys (Nat.lt_of_succ_lt hfuel) rest

theorem readEnd_of_isSpace (hw : IsSpace w) : readEnd w = .ok () := by
  rw [readEnd, ← List.append_nil w, skipSpace_append hw]
  rfl

/-- Every rendering of a document is read as one value. -/
theorem parse_of_renders (h : RendersDocument v t) (hdepth : v.depth ≤ depthLimit)
    (hkeys : DistinctKeys v) :
    parse t = .ok v.sorted := by
  obtain ⟨hbefore, ht, hafter⟩ := h
  next before t after =>
  have hread := readsRenderings ((before ++ (t ++ after)).length + 1)
    depthLimit v t after ht hdepth hkeys
    (by simp only [List.length_append]; omega) (.of_isSpace hafter)
  simp only [parse, readValue_of_isSpace hbefore, hread, readEnd_of_isSpace hafter,
    bind, Except.bind, pure, Except.pure]

end Calculator.Json
