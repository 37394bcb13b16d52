import Calculator.Proofs.Outcome
import Calculator.Request.Field
import Mathlib.Data.List.Basic

/-!
# The checks of a request

A request is read by one check after another. A check examines some fields, and what it finds wrong
it tells of one of them; the first check that finds something is what the request fails with. So
nothing matters that is examined later only, and nothing at all that is in no field of the request.
-/

namespace Calculator.Request

open Json (Shape)

variable {α β : Type} {args args' : Arguments} {fields : List String} {field : String}

def AgreeOn (fields : List String) (args args' : Arguments) : Prop :=
  ∀ field ∈ fields, args'.get? field = args.get? field

namespace AgreeOn

variable {shape : Shape α} {default : α}

theorem required (h : AgreeOn fields args args') (hfield : field ∈ fields) :
    required shape args' field = required shape args field :=
  required_congr shape (h field hfield)

theorem optional (h : AgreeOn fields args args') (hfield : field ∈ fields) :
    optional shape args' field = optional shape args field :=
  optional_congr shape (h field hfield)

theorem orDefault (h : AgreeOn fields args args') (hfield : field ∈ fields) :
    orDefault default shape args' field = orDefault default shape args field :=
  orDefault_congr default shape (h field hfield)

end AgreeOn

namespace Arguments

theorem get?_cons (m : String × Json) (args : Arguments) (field : String) :
    get? (m :: args) field = if m.1 = field then (if m.2.isNull then none else some m.2) else
      get? args field := by
  by_cases h : m.1 = field
  · simp [get?, h]
  · simp [get?, h]

theorem get?_eq_none (h : field ∉ args.map (·.1)) : args.get? field = none := by
  induction args with
  | nil => rfl
  | cons m args ih =>
    rw [List.map_cons, List.mem_cons, not_or] at h
    rw [get?_cons, if_neg (Ne.symm h.1), ih h.2]

theorem agreeOn_cons {m : String × Json} (h : m.1 ∉ fields) : AgreeOn fields args (m :: args) := by
  intro field hfield
  rw [get?_cons, if_neg]
  rintro rfl
  exact h hfield

def relevant (fields : List String) (args : Arguments) : Arguments :=
  args.filter fun m => m.1 ∈ fields ∧ m.2.isNull = false

theorem get?_relevant (hkeys : (args.map (·.1)).Nodup) (hfield : field ∈ fields) :
    (args.relevant fields).get? field = args.get? field := by
  induction args with
  | nil => rfl
  | cons m args ih =>
    rw [List.map_cons, List.nodup_cons] at hkeys
    have ih := ih hkeys.2
    rw [get?_cons, relevant, List.filter_cons]
    by_cases hname : m.1 = field
    · rw [if_pos hname]
      cases hnull : m.2.isNull with
      | false =>
        rw [if_pos (by simp [hname, hfield]), get?_cons, if_pos hname, hnull]
      | true =>
        -- No other member has the name of the one that is dropped.
        rw [if_neg (by simp)]
        exact ih.trans (get?_eq_none (hname ▸ hkeys.1))
    · rw [if_neg hname]
      split
      · rw [get?_cons, if_neg hname]
        exact ih
      · exact ih

theorem agreeOn_relevant (hkeys : (args.map (·.1)).Nodup) :
    AgreeOn fields args (args.relevant fields) :=
  fun _ hfield => get?_relevant hkeys hfield

end Arguments

/-- What a check finds wrong, and which fields it examines for that. -/
structure Check where
  field : String
  examines : List String
  fault? : Arguments → Option Constraint
  field_mem : field ∈ examines
  fault?_congr : ∀ {args args' : Arguments}, AgreeOn examines args args' →
    fault? args' = fault? args

namespace Check

def mismatch? (shape : Shape α) (v : Json) : Option Constraint :=
  match shape v with
  | .ok _ => none
  | .error m => some (.mismatch m)

def optional (shape : Shape α) (field : String) : Check where
  field := field
  examines := [field]
  fault? args := (args.get? field).bind (mismatch? shape)
  field_mem := List.mem_singleton_self field
  fault?_congr h := by rw [h field (List.mem_singleton_self field)]

def required (shape : Shape α) (field : String) : Check where
  field := field
  examines := [field]
  fault? args := ((args.get? field).map (mismatch? shape)).getD (some .required)
  field_mem := List.mem_singleton_self field
  fault?_congr h := by rw [h field (List.mem_singleton_self field)]

def satisfied (field : String) (examines : List String) (field_mem : field ∈ examines)
    (read : Arguments → Outcome α)
    (read_congr : ∀ {args args' : Arguments}, AgreeOn examines args args' → read args' = read args)
    (violates : α → Bool) (constraint : Constraint) : Check where
  field := field
  examines := examines
  fault? args :=
    match read args with
    | .ok a => if violates a then some constraint else none
    | .error _ => none
  field_mem := field_mem
  fault?_congr h := by rw [read_congr h]

def failure? (c : Check) (args : Arguments) : Option Failure :=
  (c.fault? args).map (.validation c.field)

end Check

def firstFailure? (checks : List Check) (args : Arguments) : Option Failure :=
  checks.findSome? (·.failure? args)

/-- The check `c` finds a fault where all checks before it find none. -/
structure FirstFault (checks : List Check) (args : Arguments) (earlier : List Check) (c : Check)
    (constraint : Constraint) : Prop where
  order : earlier ++ [c] <+: checks
  passed : ∀ d ∈ earlier, d.fault? args = none
  fault : c.fault? args = some constraint

variable {checks earlier : List Check} {c : Check} {constraint : Constraint} {failure : Failure}

theorem FirstFault.mem (h : FirstFault checks args earlier c constraint) : c ∈ checks :=
  h.order.subset (by simp)

theorem FirstFault.congr (h : FirstFault checks args earlier c constraint)
    (hagree : ∀ d ∈ earlier ++ [c], AgreeOn d.examines args args') :
    FirstFault checks args' earlier c constraint where
  order := h.order
  passed d hd := (d.fault?_congr (hagree d (List.mem_append_left [c] hd))).trans (h.passed d hd)
  fault := (c.fault?_congr (hagree c (by simp))).trans h.fault

theorem firstFailure?_eq_some_iff :
    firstFailure? checks args = some failure ↔
      ∃ earlier c constraint, FirstFault checks args earlier c constraint ∧
      failure = .validation c.field constraint := by
  rw [firstFailure?, List.findSome?_eq_some_iff]
  constructor
  · rintro ⟨earlier, c, later, rfl, hfailure, hpassed⟩
    obtain ⟨constraint, hfault, rfl⟩ := Option.map_eq_some_iff.1 hfailure
    refine ⟨earlier, c, constraint, ⟨⟨later, by simp⟩, fun d hd => ?_, hfault⟩, rfl⟩
    exact Option.map_eq_none_iff.1 (hpassed d hd)
  · rintro ⟨earlier, c, constraint, ⟨⟨later, rfl⟩, hpassed, hfault⟩, rfl⟩
    refine ⟨earlier, c, later, by simp, ?_, fun d hd => ?_⟩
    · rw [Check.failure?, hfault, Option.map_some]
    · rw [Check.failure?, hpassed d hd, Option.map_none]

def failure? : Outcome α → Option Failure
  | .ok _ => none
  | .error failure => some failure

theorem failure?_eq_some_iff {x : Outcome α} : failure? x = some failure ↔ x = .error failure := by
  cases x <;> simp [failure?]

theorem failure?_map (f : α → β) (x : Outcome α) : failure? (f <$> x) = failure? x := by
  cases x <;> rfl

theorem failure?_of_only {x : Outcome α}
    (h : ∀ failure, x = .error failure → failure = .validation field constraint) :
    failure? x = (if (failure? x).isSome then some constraint else none).map
      (.validation field) := by
  cases x with
  | ok a => rfl
  | error failure =>
    rw [h failure rfl]
    rfl

theorem failure?_optional (shape : Shape α) (args : Arguments) (field : String) :
    failure? (optional shape args field) = (Check.optional shape field).failure? args := by
  unfold optional
  cases hget : args.get? field with
  | none => simp [Check.failure?, Check.optional, hget, failure?]
  | some v => cases hshape : shape v <;> simp [Check.failure?, Check.optional,
      Check.mismatch?, hget, hshape, failure?]

theorem failure?_required (shape : Shape α) (args : Arguments) (field : String) :
    failure? (required shape args field) = (Check.required shape field).failure? args := by
  unfold required optional
  cases hget : args.get? field with
  | none => simp [Check.failure?, Check.required, hget, failure?, bind, Except.bind]
  | some v =>
    cases hshape : shape v <;>
      simp [Check.failure?, Check.required, Check.mismatch?, hget, hshape,
        failure?, bind, Except.bind]

theorem failure?_orDefault (default : α) (shape : Shape α) (args : Arguments) (field : String) :
    failure? (orDefault default shape args field) = (Check.optional shape field).failure? args := by
  rw [← failure?_optional shape args field, orDefault, bind_pure_comp, failure?_map]

/-- A computation fails as the first of the checks that finds a fault. -/
def Performs (args : Arguments) (checks : List Check) (x : Outcome α) : Prop :=
  failure? x = firstFailure? checks args

namespace Performs

variable {x : Outcome α} {next : α → Outcome β} {shape : Shape α} {default : α}

theorem done (a : α) : Performs args [] (.ok a : Outcome α) := rfl

theorem step (hx : failure? x = c.failure? args)
    (hnext : ∀ a, x = .ok a → Performs args checks (next a)) :
    Performs args (c :: checks) (x >>= next) := by
  rw [Performs, firstFailure?, List.findSome?_cons, ← hx]
  cases x with
  | error failure => rfl
  | ok a => exact hnext a rfl

theorem required (hnext : ∀ a, Request.required shape args field = .ok a →
    Performs args checks (next a)) :
    Performs args (.required shape field :: checks) (Request.required shape args field >>= next) :=
  .step (failure?_required shape args field) hnext

theorem optional {next : Option α → Outcome β}
    (hnext : ∀ a, Request.optional shape args field = .ok a → Performs args checks (next a)) :
    Performs args (.optional shape field :: checks) (Request.optional shape args field >>= next) :=
  .step (failure?_optional shape args field) hnext

theorem orDefault (hnext : ∀ a, Request.orDefault default shape args field = .ok a →
    Performs args checks (next a)) :
    Performs args (.optional shape field :: checks)
    (Request.orDefault default shape args field >>= next) :=
  .step (failure?_orDefault default shape args field) hnext

theorem map (f : α → β) (h : Performs args checks x) : Performs args checks (f <$> x) :=
  (failure?_map f x).trans h

theorem eq_error_iff (h : Performs args checks x) :
    x = .error failure ↔
      ∃ earlier c constraint, FirstFault checks args earlier c constraint ∧
      failure = .validation c.field constraint := by
  rw [← failure?_eq_some_iff, h, firstFailure?_eq_some_iff]

end Performs

end Calculator.Request
