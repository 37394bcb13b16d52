import Calculator.Json.Basic
import Mathlib.Data.List.Basic

/-!
# Members in ascending order of their keys

Putting members one after another keeps the keys ascending. Ascending members are determined by
which members there are, so members with distinct keys have one value in whatever order they are
put.
-/

namespace Calculator.Json

variable {α : Type} {key : String} {value : α} {ms ms' : List (String × α)}

def Ascending (ms : List (String × α)) : Prop :=
  (ms.map (·.1)).Pairwise (· < ·)

theorem Ascending.nil : Ascending ([] : List (String × α)) :=
  List.Pairwise.nil

theorem ascending_cons {m : String × α} :
    Ascending (m :: ms) ↔ (∀ n ∈ ms, m.1 < n.1) ∧ Ascending ms := by
  simp [Ascending]

theorem Ascending.nodup_keys (h : Ascending ms) : (ms.map (·.1)).Nodup := by
  refine List.Pairwise.imp ?_ h
  rintro key _ hlt rfl
  exact String.lt_irrefl key hlt

theorem mem_put {m : String × α} (h : m ∈ put key value ms) : m = (key, value) ∨ m ∈ ms := by
  induction ms with
  | nil => exact .inl (List.mem_singleton.1 h)
  | cons n rest ih =>
    unfold put at h
    split at h
    · exact List.mem_cons.1 h
    · split at h
      · exact (List.mem_cons.1 h).imp_right (List.mem_cons_of_mem n)
      · rcases List.mem_cons.1 h with rfl | hrest
        · exact .inr List.mem_cons_self
        · exact (ih hrest).imp_right (List.mem_cons_of_mem n)

theorem Ascending.put (h : Ascending ms) (key : String) (value : α) :
    Ascending (Json.put key value ms) := by
  induction ms with
  | nil => simp [Json.put, Ascending]
  | cons n rest ih =>
    obtain ⟨hfirst, hrest⟩ := ascending_cons.1 h
    unfold Json.put
    split
    · next hlt =>
      refine ascending_cons.2 ⟨fun m hm => ?_, h⟩
      rcases List.mem_cons.1 hm with rfl | hm
      · exact hlt
      · exact String.lt_trans hlt (hfirst m hm)
    · next hnlt =>
      split
      · next heq => exact ascending_cons.2 ⟨heq ▸ hfirst, hrest⟩
      · next hne =>
        refine ascending_cons.2 ⟨fun m hm => ?_, ih hrest⟩
        rcases mem_put hm with rfl | hm
        · refine Decidable.byContradiction fun hn => hne ?_
          exact String.le_antisymm (String.not_lt.1 hn) (String.not_lt.1 hnlt)
        · exact hfirst m hm

theorem ascending_foldl_put (ms : List (String × α)) {done : List (String × α)}
    (h : Ascending done) :
    Ascending (ms.foldl (fun done m => put m.1 m.2 done) done) := by
  induction ms generalizing done with
  | nil => exact h
  | cons m ms ih => exact ih (h.put m.1 m.2)

theorem ascending_putAll (ms : List (String × α)) : Ascending (putAll ms) :=
  ascending_foldl_put ms .nil

theorem mem_of_mem_foldl_put {m : String × α} {done : List (String × α)}
    (h : m ∈ ms.foldl (fun done m => put m.1 m.2 done) done) : m ∈ ms ∨ m ∈ done := by
  induction ms generalizing done with
  | nil => exact .inr h
  | cons n rest ih =>
    rcases ih h with hrest | hput
    · exact .inl (List.mem_cons_of_mem n hrest)
    · rcases mem_put hput with rfl | hdone
      · exact .inl List.mem_cons_self
      · exact .inr hdone

theorem mem_of_mem_putAll {m : String × α} (h : m ∈ putAll ms) : m ∈ ms := by
  rcases mem_of_mem_foldl_put h with hms | hnone
  · exact hms
  · exact absurd hnone List.not_mem_nil

theorem put_perm (h : key ∉ ms.map (·.1)) : (put key value ms).Perm ((key, value) :: ms) := by
  induction ms with
  | nil => exact .refl _
  | cons n rest ih =>
    rw [List.map_cons, List.mem_cons, not_or] at h
    unfold put
    split
    · exact .refl _
    · rw [if_neg h.1]
      exact ((ih h.2).cons n).trans (.swap _ _ _)

theorem foldl_put_perm {done : List (String × α)} (h : ((ms ++ done).map (·.1)).Nodup) :
    (ms.foldl (fun done m => put m.1 m.2 done) done).Perm (ms ++ done) := by
  induction ms generalizing done with
  | nil => exact .refl _
  | cons m ms ih =>
    rw [List.cons_append, List.map_cons, List.nodup_cons, List.map_append,
      List.mem_append, not_or] at h
    have hput : (put m.1 m.2 done).Perm (m :: done) := put_perm h.1.2
    have hmiddle : (ms ++ put m.1 m.2 done).Perm (m :: ms ++ done) :=
      (hput.append_left ms).trans List.perm_middle
    refine (ih ?_).trans hmiddle
    rw [(hmiddle.map _).nodup_iff, List.cons_append, List.map_cons, List.nodup_cons,
      List.map_append, List.mem_append, not_or]
    exact h

theorem putAll_perm (h : (ms.map (·.1)).Nodup) : (putAll ms).Perm ms := by
  have hfold : (putAll ms).Perm (ms ++ []) := foldl_put_perm (by rwa [List.append_nil])
  rwa [List.append_nil] at hfold

theorem find?_of_mem (h : (ms.map (·.1)).Nodup) (hmem : (key, value) ∈ ms) :
    ms.find? (·.1 == key) = some (key, value) := by
  induction ms with
  | nil => exact absurd hmem List.not_mem_nil
  | cons m rest ih =>
    rw [List.map_cons, List.nodup_cons] at h
    rcases List.mem_cons.1 hmem with rfl | hrest
    · exact List.find?_cons_of_pos (beq_self_eq_true key)
    · have hkey : key ∈ rest.map (·.1) := List.mem_map_of_mem hrest
      have hne : (m.1 == key) = false := beq_false_of_ne fun heq => h.1 (heq ▸ hkey)
      rw [List.find?_cons_of_neg (by rw [hne]; exact Bool.false_ne_true), ih h.2 hrest]

theorem get?_ofMembers {v : Json} {ms : List (String × Json)} (h : (ms.map (·.1)).Nodup)
    (hmem : (key, v) ∈ ms) :
    (ofMembers ms).get? key = some v := by
  have hperm := putAll_perm h
  rw [ofMembers, get?, find?_of_mem ((hperm.map _).nodup_iff.2 h) (hperm.mem_iff.2 hmem),
    Option.map_some]

theorem get?_ofMembers_eq_none {ms : List (String × Json)} (h : key ∉ ms.map (·.1)) :
    (ofMembers ms).get? key = none := by
  have hnone : (putAll ms).find? (·.1 == key) = none := by
    rw [List.find?_eq_none]
    intro m hm hkey
    rw [beq_iff_eq] at hkey
    exact h (hkey ▸ List.mem_map_of_mem (mem_of_mem_putAll hm))
  rw [ofMembers, get?, hnone, Option.map_none]

theorem get?_bind_asString?_eq_some {v : Json} {s : String} :
    (v.get? key).bind asString? = some s ↔ v.get? key = some (.string s) := by
  rcases v.get? key with _ | ⟨_ | _ | _ | _ | _ | _ | _⟩ <;> simp [asString?]

theorem Ascending.eq_of_perm (h : Ascending ms) (h' : Ascending ms')
    (hperm : ms.Perm ms') : ms = ms' := by
  refine hperm.eq_of_pairwise ?_ (List.pairwise_map.1 h) (List.pairwise_map.1 h')
  intro a b _ _ hab hba
  exact absurd hba (String.lt_asymm hab)

theorem putAll_eq_of_perm (hperm : ms.Perm ms') (h : (ms.map (·.1)).Nodup) :
    putAll ms = putAll ms' := by
  have h' : (ms'.map (·.1)).Nodup := (hperm.map _).nodup_iff.1 h
  refine (ascending_putAll ms).eq_of_perm (ascending_putAll ms') ?_
  exact (putAll_perm h).trans (hperm.trans (putAll_perm h').symm)

theorem putAll_of_ascending (h : Ascending ms) : putAll ms = ms :=
  (ascending_putAll ms).eq_of_perm h (putAll_perm h.nodup_keys)

end Calculator.Json
