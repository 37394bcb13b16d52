import Calculator.Proofs.Binary64.Operations
import Calculator.Proofs.Outcome
import Calculator.Statistics

/-!
# Statistics of finite numbers

The smallest and the largest of finite numbers are among them. All other statistics are checked when
they are asked for, so no statistic that is given is infinite, alone or in a summary.
-/

namespace Calculator

open Binary64

variable {x y : Float} {values : List Float}

namespace Statistics

theorem isFinite_foldl {pick : Float → Float → Float} (hpick : ∀ x y, pick x y = x ∨ pick x y = y)
    (hstart : x.isFinite = true) (h : ∀ y ∈ values, y.isFinite = true) :
    (values.foldl pick x).isFinite = true := by
  induction values generalizing x with
  | nil => exact hstart
  | cons y rest ih =>
    rw [List.forall_mem_cons] at h
    refine ih ?_ h.2
    rcases hpick x y with hx | hy
    · rwa [hx]
    · rw [hy]
      exact h.1

theorem require_pos {least : Nat} {what : String} (h : require values (least + 1) what = .ok ()) :
    values ≠ [] := by
  rintro rfl
  cases h

theorem isFinite_foldl_of_ne_nil {pick : Float → Float → Float}
    (hpick : ∀ x y, pick x y = x ∨ pick x y = y)
    (hstart : ∀ y, y.isFinite = true → pick x y = y) (hne : values ≠ [])
    (h : ∀ y ∈ values, y.isFinite = true) :
    (values.foldl pick x).isFinite = true := by
  obtain ⟨y, rest, rfl⟩ := List.exists_cons_of_ne_nil hne
  rw [List.forall_mem_cons] at h
  rw [List.foldl_cons, hstart y h.1]
  exact isFinite_foldl hpick h.1 h.2

theorem isFinite_of_min (h : ∀ y ∈ values, y.isFinite = true) (hmin : min values = .ok x) :
    x.isFinite = true := by
  obtain ⟨_, hrequire, hmin⟩ := bind_eq_ok_iff.1 hmin
  cases hmin
  exact isFinite_foldl_of_ne_nil smaller_eq_or (fun _ => smaller_infinity) (require_pos hrequire) h

theorem isFinite_of_max (h : ∀ y ∈ values, y.isFinite = true) (hmax : max values = .ok x) :
    x.isFinite = true := by
  obtain ⟨_, hrequire, hmax⟩ := bind_eq_ok_iff.1 hmax
  cases hmax
  exact isFinite_foldl_of_ne_nil larger_eq_or (fun _ => larger_infinity) (require_pos hrequire) h

structure Summary.IsFinite (s : Summary) : Prop where
  mean : s.mean.isFinite = true
  median : s.median.isFinite = true
  min : s.min.isFinite = true
  max : s.max.isFinite = true
  range : s.range.isFinite = true
  sum : s.sum.isFinite = true
  stdev : ∀ x ∈ s.stdev, x.isFinite = true
  variance : ∀ x ∈ s.variance, x.isFinite = true

theorem isFinite_of_finiteIfAny {given found : Option Float} {what : String}
    (h : finiteIfAny given what = .ok found) :
    ∀ x ∈ found, x.isFinite = true := by
  cases given with
  | none =>
    cases h
    exact nofun
  | some x =>
    obtain ⟨y, hy, h⟩ := bind_eq_ok_iff.1 h
    cases h
    rintro z ⟨⟩
    exact isFinite_of_finite hy

theorem isFinite_of_checks {s : Summary} {least greatest : Float} {deviation spread : Option Float}
    (hleast : least.isFinite = true) (hgreatest : greatest.isFinite = true)
    (h : (do
      let mean ← finite (← mean values) "mean"
      let median ← finite (← median values) "median"
      let range ← finite (greatest - least) "range"
      let sum ← finite (total values) "sum"
      let stdev ← finiteIfAny deviation "stdev"
      let variance ← finiteIfAny spread "variance"
      return {
        count := values.length, mean, median, min := least, max :=
  greatest, range, sum, stdev, variance : Summary }) =
      Except.ok s) : s.IsFinite := by
  obtain ⟨mean, -, h⟩ := bind_eq_ok_iff.1 h
  obtain ⟨mean', hmean, h⟩ := bind_eq_ok_iff.1 h
  obtain ⟨median, -, h⟩ := bind_eq_ok_iff.1 h
  obtain ⟨median', hmedian, h⟩ := bind_eq_ok_iff.1 h
  obtain ⟨range, hrange, h⟩ := bind_eq_ok_iff.1 h
  obtain ⟨sum, hsum, h⟩ := bind_eq_ok_iff.1 h
  obtain ⟨stdev, hstdev, h⟩ := bind_eq_ok_iff.1 h
  obtain ⟨variance, hvariance, h⟩ := bind_eq_ok_iff.1 h
  cases h
  exact ⟨isFinite_of_finite hmean, isFinite_of_finite hmedian, hleast,
    hgreatest, isFinite_of_finite hrange,
    isFinite_of_finite hsum, isFinite_of_finiteIfAny hstdev, isFinite_of_finiteIfAny hvariance⟩

theorem isFinite_of_summary {s : Summary} (h : ∀ y ∈ values, y.isFinite = true)
    (hsummary : summary values = .ok s) :
    s.IsFinite := by
  obtain ⟨_, -, hsummary⟩ := bind_eq_ok_iff.1 hsummary
  obtain ⟨least, hleast, hsummary⟩ := bind_eq_ok_iff.1 hsummary
  obtain ⟨greatest, hgreatest, hsummary⟩ := bind_eq_ok_iff.1 hsummary
  have hmin := isFinite_of_min h hleast
  have hmax := isFinite_of_max h hgreatest
  -- Several numbers have a deviation and a variance, which are checked like the rest.
  simp only at hsummary
  split at hsummary
  · obtain ⟨deviation, -, hsummary⟩ := bind_eq_ok_iff.1 hsummary
    obtain ⟨spread, -, hsummary⟩ := bind_eq_ok_iff.1 hsummary
    exact isFinite_of_checks hmin hmax hsummary
  · exact isFinite_of_checks hmin hmax hsummary

end Statistics

theorem Statistic.isFinite_of_evaluate {s : Statistic} (h : s.evaluate values = .ok x) :
    x.isFinite = true := by
  obtain ⟨computed, -, h⟩ := bind_eq_ok_iff.1 h
  exact isFinite_of_finite h

end Calculator
