import Calculator.Json.Record
import Calculator.Proofs.Json.Rendering

/-!
# Records from renderings

A record is read from every rendering of the object of its fields, in whatever order these stand
there. What is read of it at any time follows from the keys that are still to come, as each key
comes once: a field has its value unless its key is among them.
-/

namespace Calculator.Json

variable {α β γ σ : Type} {key other : String} {value : α} {keys : List String}
  {v : Json} {ms : List (String × Json)}
  {m : String × Json} {s s' : σ} {t w cs rest : List Char} {fuel bound : Nat}

def pending (key : String) (value : α) (keys : List String) : Option α :=
  if key ∈ keys then none else some value

@[simp] theorem pending_nil : pending key value [] = some value :=
  if_neg List.not_mem_nil

theorem pending_of_mem (h : key ∈ keys) : pending key value keys = none :=
  if_pos h

theorem pending_of_not_mem (h : key ∉ keys) : pending key value keys = some value :=
  if_neg h

@[simp] theorem pending_cons_self : pending key value (key :: keys) = none :=
  pending_of_mem List.mem_cons_self

theorem pending_cons_of_ne (h : key ≠ other) :
    pending key value (other :: keys) = pending key value keys := by
  simp [pending, h]

theorem memberRun_pending {R : Json → List Char → Prop} {member : σ → String → Read σ}
    {state : List String → σ} (h : ∀ m ∈ ms, ∀ keys, m.1 ∉ keys → MemberStep R bound member m
      (state (m.1 :: keys)) (state keys))
    (hkeys : (ms.map (·.1)).Nodup) : MemberRun R bound member ms (state (ms.map (·.1)))
    (state []) := by
  induction ms with
  | nil => exact .nil _
  | cons m ms ih =>
    rw [List.map_cons, List.nodup_cons] at hkeys
    exact .cons (h m List.mem_cons_self _ hkeys.1)
      (ih (fun n hn => h n (List.mem_cons_of_mem m hn)) hkeys.2)

theorem readShape_of_readValue {shape : Shape α} {a : α} (h : readValue fuel 0 cs = .ok (v, rest))
    (hshape : shape v = .ok a) : readShape shape fuel cs = .ok (a, rest) := by
  unfold readValue at h
  unfold readShape
  cases hspace : skipSpace cs with
  | nil =>
    rw [hspace] at h
    cases h
  | cons c cs' =>
    simp only [hspace] at h
    split at h
    · cases h
    · next hplain =>
      rw [not_or] at hplain
      simp only [hplain, if_false, h, hshape, bind, Except.bind]

theorem readShape_of_renders {shape : Shape α} {a : α} (hshape : shape v = .ok a)
    (hleaf : v.depth = 0) (hw : IsSpace w)
    (h : Renders v t) (hfuel : t.length < fuel) (hrest : EndsNumber rest) :
    readShape shape fuel (w ++ (t ++ rest)) = .ok (a, rest) := by
  refine readShape_of_readValue ?_ hshape
  rw [readValue_of_isSpace hw, readValue_leaf h hleaf hfuel hrest]

def RecordField.Step (field : RecordField σ) (bound : Nat) (v : Json) (s s' : σ) : Prop :=
  ∀ w t rest, IsSpace w → Renders v t → t.length < bound → EndsNumber rest →
    field.read s (w ++ (t ++ rest)) = .ok (.ok s', rest)

theorem memberStep_readField {fields : List (RecordField σ)} {field : RecordField σ}
    (hfind : fields.find? (·.name == m.1) = some field) (hfresh : field.isRead s = false)
    (hread : field.Step bound m.2 s s') : MemberStep Renders bound (readField fields) m s s' := by
  intro before after t rest hbefore hafter ht hlength hrest
  simp only [readField, hfind, hfresh, Bool.false_eq_true, if_false, readColon_append hbefore,
    hread after t rest hafter ht hlength hrest, settle, bind, Except.bind]

theorem Renders.object_parts (h : Renders (.object ms) t) :
    ∃ order u, t = '\x7b' :: u ∧ order.Perm ms ∧ RendersParts (RendersMember Renders)
      '\x7d' order u := by
  cases h with
  | number h => rcases Numeral.value?_eq_some h with ⟨_, h⟩ | ⟨_, h⟩ <;> cases h
  | object horder h => exact ⟨_, _, rfl, horder, h⟩

/-- The members of an object fill in a record step by step: `state` is what is read of it when some
keys are still to come. -/
structure RecordShape.FilledBy (shape : RecordShape σ α) (bound : Nat) (ms : List (String × Json))
    (state : List String → σ) : Prop where
  nodup_keys : (ms.map (·.1)).Nodup
  start : ∀ keys, (∀ m ∈ ms, m.1 ∈ keys) → state keys = shape.start
  step : ∀ m ∈ ms, ∀ keys, m.1 ∉ keys →
    MemberStep Renders bound (readField shape.fields) m (state (m.1 :: keys)) (state keys)

/-- A record is read from every rendering of the object of its fields. -/
theorem readRecord_of_renders {shape : RecordShape σ α} {state : List String → σ} {a : α}
    (hfilled : shape.FilledBy fuel ms state) (hbuild : shape.build (state []) = .ok a)
    (hw : IsSpace w) (h : Renders (.object ms) t) (hfuel : t.length < fuel) (rest : List Char) :
    readRecord shape fuel (w ++ (t ++ rest)) = .ok (a, rest) := by
  obtain ⟨order, u, rfl, horder, hparts⟩ := h.object_parts
  have hlength : u.length ≤ fuel := Nat.le_of_lt (Nat.lt_of_succ_lt hfuel)
  have hstart : state (order.map (·.1)) = shape.start := by
    refine hfilled.start _ fun m hm => ?_
    exact List.mem_map_of_mem (horder.mem_iff.2 hm)
  have hrun := memberRun_pending (fun m hm => hfilled.step m (horder.mem_iff.1 hm))
    ((horder.map _).nodup_iff.2 hfilled.nodup_keys)
  rw [hstart] at hrun
  have hmembers := readMembers_parts hparts hrun hlength hlength rest
  rw [readRecord, skipSpace_append hw, List.cons_append, skipSpace_cons (by decide)]
  simp only [if_true, hmembers, RecordShape.finish, hbuild, bind, Except.bind]

theorem readRecord_pairShape {name key key' : String} {first : Shape α} {second : Shape β}
    {build : Option α → Option β → Except Mismatch γ} {v v' : Json} {a : α}
    {b : β} {c : γ} (hne : key ≠ key')
    (hleaf : v.depth = 0) (hleaf' : v'.depth = 0) (ha : first v = .ok a) (hb : second v' = .ok b)
    (hbuild : build (some a) (some b) = .ok c) (hw : IsSpace w)
    (h : Renders (.object [(key, v), (key', v')]) t) (hfuel : t.length < fuel) (rest : List Char) :
    readRecord (pairShape name fuel (key, first) (key', second) build) fuel (w ++ (t ++ rest)) =
      .ok (c, rest) := by
  have hfilled : (pairShape name fuel (key, first) (key', second) build).FilledBy fuel
    [(key, v), (key', v')]
      fun keys => (pending key a keys, pending key' b keys) := by
    constructor
    · simp [hne]
    · intro keys hkeys
      rw [List.forall_mem_cons, List.forall_mem_singleton] at hkeys
      rw [pending_of_mem hkeys.1, pending_of_mem hkeys.2]
      rfl
    · rw [List.forall_mem_cons, List.forall_mem_singleton]
      constructor
      · intro keys hkey
        refine memberStep_readField (List.find?_cons_of_pos (beq_self_eq_true _)) (by simp) ?_
        intro w t rest hw ht hlength hrest
        simp only [readShape_of_renders ha hleaf hw ht hlength hrest,
          bind, Except.bind, pure, Except.pure,
          pending_of_not_mem hkey, pending_cons_of_ne hne.symm]
      · intro keys hkey
        refine memberStep_readField ((List.find?_cons_of_neg (by simp [hne])).trans
          (List.find?_cons_of_pos (beq_self_eq_true _))) (by simp) ?_
        intro w t rest hw ht hlength hrest
        simp only [readShape_of_renders hb hleaf' hw ht hlength hrest,
          bind, Except.bind, pure, Except.pure, pending_of_not_mem hkey, pending_cons_of_ne hne]
  exact readRecord_of_renders hfilled (by simpa [pairShape] using hbuild) hw h hfuel rest

theorem fillMembers_pending {fields : List (ValueField σ)} {state : List String → σ}
    (h : ∀ m ∈ ms, ∀ keys, m.1 ∉ keys → ∃ field, fields.find? (·.name == m.1) = some field ∧
      field.isRead (state (m.1 :: keys)) = false ∧
      field.read (state (m.1 :: keys)) m.2 = .ok (state keys))
    (hkeys : (ms.map (·.1)).Nodup) : fillMembers fields ms (state (ms.map (·.1))) =
      .ok (state []) := by
  induction ms with
  | nil => rfl
  | cons m ms ih =>
    rw [List.map_cons, List.nodup_cons] at hkeys
    obtain ⟨field, hfind, hfresh, hread⟩ := h m List.mem_cons_self _ hkeys.1
    have hrest := ih (fun n hn => h n (List.mem_cons_of_mem m hn)) hkeys.2
    simp only [List.map_cons, fillMembers, hfind, hfresh, Bool.false_eq_true,
      if_false, hread, bind, Except.bind]
    exact hrest

end Calculator.Json
