import Calculator.Proofs.Binary64.Moderate
import Calculator.Proofs.Json.Value
import Calculator.Proofs.Outcome
import Calculator.Request.Field

/-!
# Numbers of a request

The numbers of a request are finite, since those of its document are.
-/

namespace Calculator

open Json (Shape)
open Request

variable {args : Arguments} {field : String} {v : Json} {x : Float}

theorem isFinite_floatOfWhole (n : Json.Whole) : (Shape.floatOfWhole n).isFinite = true := by
  have hlower := n.lower
  have hupper := n.upper
  exact (Binary64.isModerate_floatOfRatio (k := 64) Nat.one_ne_zero (by decide) (by omega)).isFinite

theorem isFinite_of_float (hv : v.FiniteFloats) (h : Shape.float v = .ok x) :
    x.isFinite = true := by
  cases v with
  | whole n =>
    cases h
    exact isFinite_floatOfWhole n
  | float y =>
    cases h
    exact hv x (.self _)
  | null | bool _ | string _ | array _ | object _ => cases h

theorem isFinite_of_items {items : List Json} {xs : List Float}
    (hitems : ∀ v ∈ items, v.FiniteFloats)
    (h : Shape.items Shape.float items = .ok xs) : ∀ x ∈ xs, x.isFinite = true := by
  induction items generalizing xs with
  | nil =>
    cases h
    exact nofun
  | cons v rest ih =>
    obtain ⟨first, hfirst, h⟩ := bind_eq_ok_iff.1 h
    obtain ⟨others, hothers, h⟩ := bind_eq_ok_iff.1 h
    cases h
    rw [List.forall_mem_cons]
    exact ⟨isFinite_of_float (hitems v List.mem_cons_self) hfirst,
      ih (fun u hu => hitems u (List.mem_cons_of_mem v hu)) hothers⟩

theorem isFinite_of_list {xs : List Float} (hv : v.FiniteFloats)
    (h : Shape.list Shape.float v = .ok xs) :
    ∀ x ∈ xs, x.isFinite = true := by
  cases v with
  | array items => exact isFinite_of_items (fun u hu y hy => hv y (.item hu hy)) h
  | null | bool _ | whole _ | float _ | string _ | object _ => cases h

theorem exists_of_optional {α : Type} {shape : Shape α} {a : α}
    (h : optional shape args field = .ok (some a)) :
    ∃ m ∈ args, shape m.2 = .ok a := by
  unfold Request.optional at h
  split at h
  · cases h
  next v hget =>
  have hmem : ∃ m ∈ args, m.2 = v := by
    unfold Arguments.get? at hget
    split at hget
    · next key found hfound =>
      split at hget
      · cases hget
      · cases hget
        exact ⟨_, List.mem_of_find?_eq_some hfound, rfl⟩
    · cases hget
  obtain ⟨m, hm, rfl⟩ := hmem
  split at h
  · next hshape =>
    cases h
    exact ⟨m, hm, hshape⟩
  · cases h

theorem exists_of_required {α : Type} {shape : Shape α} {a : α}
    (h : required shape args field = .ok a) :
    ∃ m ∈ args, shape m.2 = .ok a := by
  obtain ⟨found, hfound, h⟩ := bind_eq_ok_iff.1 h
  cases found with
  | none => cases h
  | some b =>
    cases h
    exact exists_of_optional hfound

section

variable (hargs : (Json.object args).FiniteFloats)

include hargs

theorem isFinite_of_required (h : required Shape.float args field = .ok x) : x.isFinite = true := by
  obtain ⟨m, hm, hshape⟩ := exists_of_required h
  exact isFinite_of_float (fun y hy => hargs y (.member hm hy)) hshape

theorem isFinite_of_optional {found : Option Float}
    (h : optional Shape.float args field = .ok found) :
    ∀ x ∈ found, x.isFinite = true := by
  rintro x rfl
  obtain ⟨m, hm, hshape⟩ := exists_of_optional h
  exact isFinite_of_float (fun y hy => hargs y (.member hm hy)) hshape

theorem isFinite_of_requiredList {xs : List Float}
    (h : required (Shape.list Shape.float) args field = .ok xs) :
    ∀ x ∈ xs, x.isFinite = true := by
  obtain ⟨m, hm, hshape⟩ := exists_of_required h
  exact isFinite_of_list (fun y hy => hargs y (.member hm hy)) hshape

end

end Calculator
