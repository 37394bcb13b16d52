import Calculator.Proofs.Request.Check
import Calculator.Proofs.Statistics

/-!
# Summaries and single statistics

A summary computes its statistics in its own order and checks all but the least and the greatest
number. It gives what each statistic gives alone: a number that is not finite makes the sum infinite
or undefined, so where the sum passes, the least and the greatest number pass as well.
-/

namespace Calculator

open Binary64
open Request (failure? failure?_eq_some_iff failure?_map)

variable {x y least greatest : Float} {values : List Float} {s : Statistic}
  {failure : Failure} {what : String} {α β : Type}

theorem failure?_bind {a : Outcome α} {next : α → Outcome β} {rest : Option Failure}
    (h : ∀ b, failure? (next b) = rest) : failure? (a >>= next) = (failure? a).or rest := by
  cases a with
  | error failure => rfl
  | ok b => exact h b

theorem failure?_pure (b : α) : failure? (pure b) = none := rfl

theorem failure?_eq_none_iff {a : Outcome α} : failure? a = none ↔ ∃ b, a = .ok b := by
  cases a <;> simp [failure?]

theorem finite_of_isFinite (h : x.isFinite = true) (what : String) : finite x what = .ok x := by
  rw [finite, if_pos h]

namespace Statistics

theorem require_of_le {n : Nat} (h : n ≤ values.length) (what : String) :
    require values n what = .ok () := by
  rw [require, if_neg (Nat.not_lt.2 h)]

theorem exists_of_require {n : Nat} {next : Unit → Outcome Float} (h : n ≤ values.length)
    (hnext : ∃ x, next () = .ok x) : ∃ x, require values n what >>= next = .ok x := by
  rw [require_of_le h]
  exact hnext

theorem exists_squaredDeviations (h : 1 ≤ values.length) :
    ∃ x, squaredDeviations values = .ok x := by
  rw [squaredDeviations, mean, require_of_le h]
  exact ⟨_, rfl⟩

theorem exists_variance (h : 2 ≤ values.length) : ∃ x, variance values = .ok x := by
  obtain ⟨x, hx⟩ := exists_squaredDeviations (Nat.le_of_succ_le h)
  exact exists_of_require h ⟨_, by rw [hx]; rfl⟩

theorem exists_pvariance (h : 1 ≤ values.length) : ∃ x, pvariance values = .ok x := by
  obtain ⟨x, hx⟩ := exists_squaredDeviations h
  exact exists_of_require h ⟨_, by rw [hx]; rfl⟩

theorem exists_min (h : 1 ≤ values.length) : ∃ x, min values = .ok x :=
  exists_of_require h ⟨_, rfl⟩

theorem exists_max (h : 1 ≤ values.length) : ∃ x, max values = .ok x :=
  exists_of_require h ⟨_, rfl⟩

end Statistics

namespace Statistic

open Statistics

def fewest : Statistic → Nat
  | .stdev | .variance => 2
  | _ => 1

theorem exists_compute (h : s.fewest ≤ values.length) : ∃ x, s.compute values = .ok x := by
  cases s with
  | mean => exact exists_of_require h ⟨_, rfl⟩
  | median =>
    refine exists_of_require h ?_
    simp only
    split
    · exact ⟨_, rfl⟩
    · exact ⟨_, rfl⟩
  | mode => exact exists_of_require h ⟨_, rfl⟩
  | stdev =>
    obtain ⟨x, hx⟩ := exists_variance h
    exact exists_of_require h ⟨_, by rw [hx]; rfl⟩
  | variance => exact exists_variance h
  | pstdev =>
    obtain ⟨x, hx⟩ := exists_pvariance h
    exact ⟨_, by rw [compute, hx]; rfl⟩
  | pvariance => exact exists_pvariance h
  | sum => exact exists_of_require h ⟨_, rfl⟩
  | min => exact exists_min h
  | max => exact exists_max h
  | range =>
    obtain ⟨least, hleast⟩ := exists_min h
    obtain ⟨greatest, hgreatest⟩ := exists_max h
    exact ⟨_, by rw [compute, hgreatest, hleast]; rfl⟩

theorem evaluate_eq (h : s.compute values = .ok x) : s.evaluate values = finite x s.name := by
  rw [evaluate, h]
  rfl

end Statistic

namespace Statistics

theorem isFinite_of_foldl_add (h : (values.foldl (· + ·) x).isFinite = true) :
    x.isFinite = true ∧ ∀ y ∈ values, y.isFinite = true := by
  induction values generalizing x with
  | nil => exact ⟨h, nofun⟩
  | cons y rest ih =>
    obtain ⟨hsum, hrest⟩ := ih h
    obtain ⟨hx, hy⟩ := isFinite_of_add hsum
    exact ⟨hx, List.forall_mem_cons.2 ⟨hy, hrest⟩⟩

theorem isFinite_of_evaluate_sum (h : Statistic.sum.evaluate values = .ok x) :
    ∀ y ∈ values, y.isFinite = true := by
  obtain ⟨computed, hsum, hfinite⟩ := bind_eq_ok_iff.1 h
  obtain ⟨_, -, hsum⟩ := bind_eq_ok_iff.1 hsum
  cases hsum
  exact (isFinite_of_foldl_add (finite_eq_ok hfinite).2).2

theorem evaluate_min (h : ∀ y ∈ values, y.isFinite = true) (hmin : min values = .ok least) :
    Statistic.min.evaluate values = .ok least := by
  rw [Statistic.evaluate_eq (s := .min) hmin]
  exact finite_of_isFinite (isFinite_of_min h hmin) _

theorem evaluate_max (h : ∀ y ∈ values, y.isFinite = true) (hmax : max values = .ok greatest) :
    Statistic.max.evaluate values = .ok greatest := by
  rw [Statistic.evaluate_eq (s := .max) hmax]
  exact finite_of_isFinite (isFinite_of_max h hmax) _

def sampled (values : List Float) : List Statistic :=
  if 2 ≤ values.length then [.stdev, .variance] else []

def checked (values : List Float) : List Statistic :=
  [.mean, .median, .range, .sum] ++ sampled values

def summarized (values : List Float) : List Statistic :=
  [.mean, .median, .min, .max, .range, .sum] ++ sampled values

def evaluateSample (s : Statistic) (values : List Float) : Outcome (Option Float) :=
  if 2 ≤ values.length then some <$> s.evaluate values else .ok none

theorem summary_eq (hleast : min values = .ok least) (hgreatest : max values = .ok greatest)
    (hne : values ≠ []) :
    summary values = (do
      let mean ← Statistic.mean.evaluate values
      let median ← Statistic.median.evaluate values
      let range ← Statistic.range.evaluate values
      let sum ← Statistic.sum.evaluate values
      let stdev ← evaluateSample .stdev values
      let variance ← evaluateSample .variance values
      return {
        count := values.length, mean, median, min := least, max :=
  greatest, range, sum, stdev, variance }) := by
  have hone : 1 ≤ values.length := List.length_pos_of_ne_nil hne
  obtain ⟨m, hmean⟩ : ∃ m, mean values = .ok m := Statistic.exists_compute (s := .mean) hone
  obtain ⟨middle, hmedian⟩ : ∃ middle, median values = .ok middle :=
    Statistic.exists_compute (s := .median) hone
  have hrange : Statistic.range.compute values = .ok (greatest - least) := by
    rw [Statistic.compute, hgreatest, hleast]
    rfl
  have hsum : Statistic.sum.compute values = .ok (total values) := by
    rw [Statistic.compute, sum, require_of_le hone]
    rfl
  rw [Statistic.evaluate_eq (s := .mean) hmean, Statistic.evaluate_eq (s := .median) hmedian,
    Statistic.evaluate_eq hrange, Statistic.evaluate_eq hsum, summary,
    require_of_le hone, hleast, hgreatest, hmean, hmedian]
  by_cases hseveral : 2 ≤ values.length
  · obtain ⟨deviation, hstdev⟩ : ∃ deviation, stdev values = .ok deviation :=
      Statistic.exists_compute (s := .stdev) hseveral
    obtain ⟨spread, hvariance⟩ := exists_variance hseveral
    rw [evaluateSample, evaluateSample, if_pos hseveral, if_pos hseveral,
      Statistic.evaluate_eq (s := .stdev) hstdev,
      Statistic.evaluate_eq (s := .variance) hvariance, hstdev, hvariance]
    simp only [hseveral, if_true]
    rfl
  · rw [evaluateSample, evaluateSample, if_neg hseveral, if_neg hseveral]
    simp only [hseveral, if_false]
    rfl

theorem failure?_evaluateSample : failure? (evaluateSample s values) =
    if 2 ≤ values.length then failure? (s.evaluate values) else none := by
  rw [evaluateSample]
  split
  · exact failure?_map some _
  · rfl

theorem findSome?_cons_eq_or (f : Statistic → Option Failure) (s : Statistic)
    (rest : List Statistic) :
    (s :: rest).findSome? f = (f s).or (rest.findSome? f) := by
  rw [List.findSome?_cons]
  cases f s <;> rfl

theorem failure?_summary (hne : values ≠ []) :
    failure? (summary values) = (checked values).findSome? fun s =>
      failure? (s.evaluate values) := by
  have hone : 1 ≤ values.length := List.length_pos_of_ne_nil hne
  obtain ⟨least, hleast⟩ := exists_min hone
  obtain ⟨greatest, hgreatest⟩ := exists_max hone
  rw [summary_eq hleast hgreatest hne,
    failure?_bind fun _ => failure?_bind fun _ => failure?_bind fun _ => failure?_bind fun _ =>
      failure?_bind fun _ => failure?_bind fun _ => failure?_pure _,
    failure?_evaluateSample, failure?_evaluateSample]
  simp only [checked, sampled, List.cons_append, List.nil_append, findSome?_cons_eq_or]
  split
  · simp only [findSome?_cons_eq_or, List.findSome?_nil]
  · rfl

/-- A summary has what the single statistics of its values are, those of a sample where there are
two values. -/
structure Summary.Agrees (s : Summary) (values : List Float) : Prop where
  count : s.count = values.length
  mean : Statistic.mean.evaluate values = .ok s.mean
  median : Statistic.median.evaluate values = .ok s.median
  min : Statistic.min.evaluate values = .ok s.min
  max : Statistic.max.evaluate values = .ok s.max
  range : Statistic.range.evaluate values = .ok s.range
  sum : Statistic.sum.evaluate values = .ok s.sum
  stdev : ∀ x ∈ s.stdev, Statistic.stdev.evaluate values = .ok x
  variance : ∀ x ∈ s.variance, Statistic.variance.evaluate values = .ok x
  isSome_stdev : s.stdev.isSome ↔ 2 ≤ values.length
  isSome_variance : s.variance.isSome ↔ 2 ≤ values.length

theorem of_evaluateSample {found : Option Float} (h : evaluateSample s values = .ok found) :
    (∀ x ∈ found, s.evaluate values = .ok x) ∧ (found.isSome ↔ 2 ≤ values.length) := by
  rw [evaluateSample] at h
  split at h
  · next hseveral =>
    obtain ⟨x, hx, h⟩ := bind_eq_ok_iff.1 h
    cases h
    exact ⟨by rintro y ⟨⟩; exact hx, iff_of_true rfl hseveral⟩
  · next hsingle =>
    cases h
    exact ⟨nofun, iff_of_false Bool.false_ne_true hsingle⟩

theorem agrees_of_summary {found : Summary} (hne : values ≠ []) (h : summary values = .ok found) :
    found.Agrees values := by
  have hone : 1 ≤ values.length := List.length_pos_of_ne_nil hne
  obtain ⟨least, hleast⟩ := exists_min hone
  obtain ⟨greatest, hgreatest⟩ := exists_max hone
  rw [summary_eq hleast hgreatest hne] at h
  obtain ⟨mean, hmean, h⟩ := bind_eq_ok_iff.1 h
  obtain ⟨median, hmedian, h⟩ := bind_eq_ok_iff.1 h
  obtain ⟨range, hrange, h⟩ := bind_eq_ok_iff.1 h
  obtain ⟨sum, hsum, h⟩ := bind_eq_ok_iff.1 h
  obtain ⟨stdev, hstdev, h⟩ := bind_eq_ok_iff.1 h
  obtain ⟨variance, hvariance, h⟩ := bind_eq_ok_iff.1 h
  cases h
  have hfinite := isFinite_of_evaluate_sum hsum
  obtain ⟨hdeviation, hdeviations⟩ := of_evaluateSample hstdev
  obtain ⟨hspread, hspreads⟩ := of_evaluateSample hvariance
  exact ⟨rfl, hmean, hmedian, evaluate_min hfinite hleast, evaluate_max hfinite hgreatest,
    hrange, hsum, hdeviation, hspread, hdeviations, hspreads⟩

theorem mem_summarized_iff : s ∈ summarized values ↔ s ∈ checked values ∨ s = .min ∨ s = .max := by
  simp only [summarized, checked, List.mem_append, List.mem_cons, List.not_mem_nil, or_false]
  tauto

theorem exists_summary_iff (hne : values ≠ []) :
    (∃ found, summary values = .ok found) ↔ ∀ s ∈ summarized values,
      ∃ x, s.evaluate values = .ok x := by
  have hchecked : (∃ found, summary values = .ok found) ↔ ∀ s ∈ checked values,
      ∃ x, s.evaluate values = .ok x := by
    simp only [← failure?_eq_none_iff, failure?_summary hne, List.findSome?_eq_none_iff]
  rw [hchecked]
  refine ⟨fun h s hs => ?_, fun h s hs => h s (mem_summarized_iff.2 (.inl hs))⟩
  have hone : 1 ≤ values.length := List.length_pos_of_ne_nil hne
  obtain ⟨total, hsum⟩ := h .sum (by simp [checked])
  have hfinite := isFinite_of_evaluate_sum hsum
  rcases mem_summarized_iff.1 hs with hs | rfl | rfl
  · exact h s hs
  · obtain ⟨least, hleast⟩ := exists_min hone
    exact ⟨least, evaluate_min hfinite hleast⟩
  · obtain ⟨greatest, hgreatest⟩ := exists_max hone
    exact ⟨greatest, evaluate_max hfinite hgreatest⟩

/-- A summary says what the single statistics say, and fails as the first of those that it
checks. -/
theorem summary_agrees (hne : values ≠ []) :
    ((∃ found, summary values = .ok found) ↔ ∀ s ∈ summarized values,
      ∃ x, s.evaluate values = .ok x) ∧
    (∀ found, summary values = .ok found → found.Agrees values) ∧
    ∀ failure, summary values = .error failure ↔
      (checked values).findSome? (fun s => failure? (s.evaluate values)) = some failure := by
  refine ⟨exists_summary_iff hne, fun _ => agrees_of_summary hne, fun failure => ?_⟩
  rw [← failure?_summary hne, failure?_eq_some_iff]

theorem summary_agrees_infinite :
    [1, 1 / 0] ≠ ([] : List Float) ∧ summary [1, 1 / 0] = .error (.domain (.overflow "mean")) := by
  have hne : [1, 1 / 0] ≠ ([] : List Float) := List.cons_ne_nil _ _
  have hinfinite : (total [1, 1 / 0] / count [1, 1 / 0]).isFinite = false := by decide +kernel
  have hmean : Statistic.mean.evaluate [1, 1 / 0] = .error (.domain (.overflow "mean")) := by
    rw [Statistic.evaluate_eq (s := .mean) rfl, finite, hinfinite, if_neg Bool.false_ne_true]
    rfl
  refine ⟨hne, ((summary_agrees hne).2.2 _).2 ?_⟩
  rw [checked, List.cons_append, findSome?_cons_eq_or, hmean]
  rfl

end Statistics

end Calculator
