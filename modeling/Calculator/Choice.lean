/-!
# Choices known by name

A request chooses among finitely many values by name. Every value is listed, in the order in which
messages and descriptions list them, and no two have the same name, so a name leads back to its
value.
-/

namespace Calculator

class Choice (α : Type) where
  all : List α
  name : α → String
  mem_all : ∀ a, a ∈ all
  nodup_names : (all.map name).Nodup

namespace Choice

def names (α : Type) [Choice α] : List String :=
  (all : List α).map name

variable {α : Type} [Choice α]

def ofName? (s : String) : Option α :=
  all.find? fun a => name a == s

theorem eq_of_name_eq {a b : α} (h : name a = name b) : a = b := by
  have inj : ∀ xs : List α, (xs.map name).Nodup → a ∈ xs → b ∈ xs → a = b := by
    intro xs
    induction xs with
    | nil => intro _ ha; cases ha
    | cons x xs ih =>
      intro hn ha hb
      rw [List.map_cons, List.nodup_cons] at hn
      rcases List.mem_cons.1 ha with rfl | ha' <;> rcases List.mem_cons.1 hb with rfl | hb'
      · rfl
      · exact absurd (h ▸ List.mem_map_of_mem hb') hn.1
      · exact absurd (h ▸ List.mem_map_of_mem ha') hn.1
      · exact ih hn.2 ha' hb'
  exact inj all nodup_names (mem_all a) (mem_all b)

theorem ofName?_name (a : α) : ofName? (name a) = some a := by
  unfold ofName?
  cases h : List.find? (fun b : α => name b == name a) all with
  | none => simpa using List.find?_eq_none.1 h a (mem_all a)
  | some b =>
    have hb : name b = name a := by simpa using List.find?_some h
    rw [eq_of_name_eq hb]

theorem ofName?_eq_some_iff {s : String} {a : α} : ofName? s = some a ↔ name a = s := by
  constructor
  · intro h
    simpa using List.find?_some (show List.find? (fun b : α => name b == s) all = some a from h)
  · rintro rfl
    exact ofName?_name a

end Choice

end Calculator
