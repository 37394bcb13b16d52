import Calculator.Proofs.Json.Members

/-!
# Values and their parts

The depth of a value counts the lists and objects around its innermost part. Sorting a value changes
nothing when the keys of every object in it are ascending already.
-/

namespace Calculator.Json

variable {u v : Json} {items : List Json} {ms : List (String × Json)} {n : Nat}

inductive PartOf : Json → Json → Prop
  | self (v : Json) : PartOf v v
  | item {u v : Json} {items : List Json} (hv : v ∈ items) (h : PartOf u v) :
      PartOf u (.array items)
  | member {u : Json} {m : String × Json} {ms : List (String × Json)}
      (hm : m ∈ ms) (h : PartOf u m.2) :
    PartOf u (.object ms)

def DistinctKeys (v : Json) : Prop :=
  ∀ ms, PartOf (.object ms) v → (ms.map (·.1)).Nodup

def AscendingKeys (v : Json) : Prop :=
  ∀ ms, PartOf (.object ms) v → Ascending ms

def FiniteFloats (v : Json) : Prop :=
  ∀ x, PartOf (.float x) v → x.isFinite = true

theorem AscendingKeys.distinctKeys (h : AscendingKeys v) : DistinctKeys v :=
  fun ms hms => (h ms hms).nodup_keys

theorem finiteFloats_object (h : ∀ m ∈ ms, FiniteFloats m.2) : FiniteFloats (.object ms) := by
  rintro x (_ | _ | ⟨hm, hx⟩)
  exact h _ hm x hx

mutual

def depth : Json → Nat
  | .array items => itemsDepth items + 1
  | .object members => membersDepth members + 1
  | _ => 0

def itemsDepth : List Json → Nat
  | [] => 0
  | v :: rest => max (depth v) (itemsDepth rest)

def membersDepth : List (String × Json) → Nat
  | [] => 0
  | (_, v) :: rest => max (depth v) (membersDepth rest)

end

theorem itemsDepth_le_iff : itemsDepth items ≤ n ↔ ∀ v ∈ items, v.depth ≤ n := by
  induction items with
  | nil => simp [itemsDepth]
  | cons v rest ih => rw [itemsDepth, Nat.max_le, ih, List.forall_mem_cons]

theorem membersDepth_le_iff : membersDepth ms ≤ n ↔ ∀ m ∈ ms, m.2.depth ≤ n := by
  induction ms with
  | nil => simp [membersDepth]
  | cons m rest ih => rw [membersDepth, Nat.max_le, ih, List.forall_mem_cons]

theorem depth_array_le_iff : (Json.array items).depth ≤ n + 1 ↔ ∀ v ∈ items, v.depth ≤ n := by
  rw [depth, Nat.add_le_add_iff_right, itemsDepth_le_iff]

theorem depth_object_le_iff : (Json.object ms).depth ≤ n + 1 ↔ ∀ m ∈ ms, m.2.depth ≤ n := by
  rw [depth, Nat.add_le_add_iff_right, membersDepth_le_iff]

theorem depth_lt_array (hv : v ∈ items) : v.depth < (Json.array items).depth :=
  Nat.lt_succ_of_le (itemsDepth_le_iff.1 (Nat.le_refl _) v hv)

theorem depth_lt_object {m : String × Json} (hm : m ∈ ms) : m.2.depth < (Json.object ms).depth :=
  Nat.lt_succ_of_le (membersDepth_le_iff.1 (Nat.le_refl _) m hm)

theorem sortedItems_eq_map (items : List Json) : sortedItems items = items.map sorted := by
  induction items with
  | nil => rfl
  | cons v rest ih => rw [sortedItems, ih, List.map_cons]

theorem sortedMembers_eq_map (ms : List (String × Json)) :
    sortedMembers ms = ms.map fun m => (m.1, m.2.sorted) := by
  induction ms with
  | nil => rfl
  | cons m rest ih => rw [sortedMembers, ih, List.map_cons]

theorem sorted_object_of_perm {ms ms' : List (String × Json)} (hperm : ms.Perm ms')
    (h : (ms'.map (·.1)).Nodup) :
    (Json.object ms).sorted = (Json.object ms').sorted := by
  have hkeys : ((ms.map fun m => (m.1, m.2.sorted)).map (·.1)).Nodup := by
    rw [List.map_map]
    exact (hperm.map _).nodup_iff.2 h
  rw [sorted, sorted, sortedMembers_eq_map, sortedMembers_eq_map, ofMembers, ofMembers,
    putAll_eq_of_perm (hperm.map _) hkeys]

mutual

theorem sorted_eq_self : (v : Json) → AscendingKeys v → v.sorted = v
  | .array items, h => by
    rw [sorted, sortedItems_eq_self items fun v hv ms hms => h ms (.item hv hms)]
  | .object ms, h => by
    rw [sorted, sortedMembers_eq_self ms fun m hm ns hns => h ns (.member hm hns), ofMembers,
      putAll_of_ascending (h ms (.self _))]
  | .null, _ => by rw [sorted] <;> simp
  | .bool _, _ => by rw [sorted] <;> simp
  | .whole _, _ => by rw [sorted] <;> simp
  | .float _, _ => by rw [sorted] <;> simp
  | .string _, _ => by rw [sorted] <;> simp

theorem sortedItems_eq_self : (items : List Json) → (∀ v ∈ items, AscendingKeys v) →
    sortedItems items = items
  | [], _ => rfl
  | v :: rest, h => by
    rw [sortedItems, sorted_eq_self v (h v List.mem_cons_self),
      sortedItems_eq_self rest fun u hu => h u (List.mem_cons_of_mem v hu)]

theorem sortedMembers_eq_self :
    (ms : List (String × Json)) → (∀ m ∈ ms, AscendingKeys m.2) → sortedMembers ms = ms
  | [], _ => rfl
  | (key, v) :: rest, h => by
    rw [sortedMembers, sorted_eq_self v (h (key, v) List.mem_cons_self),
      sortedMembers_eq_self rest fun n hn => h n (List.mem_cons_of_mem _ hn)]

end

mutual

theorem ascendingKeys_sorted : (v : Json) → AscendingKeys v.sorted
  | .array items => by
    rw [sorted]
    rintro ms (_ | ⟨hv, hms⟩)
    exact ascendingKeys_of_mem_sortedItems items hv ms hms
  | .object members => by
    rw [sorted, ofMembers]
    rintro ms (_ | _ | ⟨hm, hms⟩)
    · exact ascending_putAll _
    · exact ascendingKeys_of_mem_sortedMembers members (mem_of_mem_putAll hm) ms hms
  | .null | .bool _ | .whole _ | .float _ | .string _ => by
    simp only [sorted]
    rintro ms ⟨⟩

theorem ascendingKeys_of_mem_sortedItems : (items : List Json) → ∀ {v},
    v ∈ sortedItems items → AscendingKeys v
  | v :: rest, _, h => by
    rw [sortedItems, List.mem_cons] at h
    rcases h with rfl | h
    · exact ascendingKeys_sorted v
    · exact ascendingKeys_of_mem_sortedItems rest h

theorem ascendingKeys_of_mem_sortedMembers :
    (ms : List (String × Json)) → ∀ {m}, m ∈ sortedMembers ms → AscendingKeys m.2
  | (key, v) :: rest, _, h => by
    rw [sortedMembers, List.mem_cons] at h
    rcases h with rfl | h
    · exact ascendingKeys_sorted v
    · exact ascendingKeys_of_mem_sortedMembers rest h

end

@[simp] theorem sorted_sorted (v : Json) : v.sorted.sorted = v.sorted :=
  sorted_eq_self v.sorted (ascendingKeys_sorted v)

end Calculator.Json
