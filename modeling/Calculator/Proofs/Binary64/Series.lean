import Calculator.Binary64.Series
import Mathlib.Algebra.BigOperators.Group.Finset.Basic
import Mathlib.Tactic.Linarith
import Mathlib.Tactic.Ring

/-!
# Sums of series in fixed point

A sum adds up the terms as they are rounded down one after another. Where the argument is negative
and no step makes a term larger, the terms alternate in sign and shrink, so what is left of a sum
lies between nothing and its first term.
-/

namespace Calculator.Binary64.Series

variable {steps : Steps} {p : Nat} {y : Int}

def term (steps : Steps) (p : Nat) (y : Int) : Nat → Int
  | 0 => (2 ^ p : Nat)
  | n + 1 => term steps p y n * y * (steps n).1 / ((steps n).2 * 2 ^ p : Nat)

theorem term_eq_zero (steps : Steps) (p : Nat) (y : Int) {n : Nat}
    (h : term steps p y n = 0) (k : Nat) :
    term steps p y (n + k) = 0 := by
  induction k with
  | zero => exact h
  | succ k ih => rw [← Nat.add_assoc, term, ih, Int.zero_mul, Int.zero_mul, Int.zero_ediv]

theorem sumFrom_eq (steps : Steps) (p : Nat) (y : Int) (fuel n : Nat) :
    sumFrom steps p y fuel n (term steps p y n) = ∑ i ∈ Finset.range fuel,
      term steps p y (n + i) := by
  induction fuel generalizing n with
  | zero => rfl
  | succ fuel ih =>
    rw [sumFrom]
    split
    · next h => rw [Finset.sum_eq_zero fun i _ => term_eq_zero steps p y h i]
    · have hlater : ∑ i ∈ Finset.range fuel, term steps p y (n + (i + 1)) =
        sumFrom steps p y fuel (n + 1)
          (term steps p y (n + 1)) := by
        rw [ih]
        refine Finset.sum_congr rfl fun i _ => congrArg (term steps p y) (by omega)
      rw [Finset.sum_range_succ', hlater]
      exact add_comm _ _

theorem sum_eq (steps : Steps) (p : Nat) (y : Int) :
    sum steps p y = ∑ i ∈ Finset.range (p + 1), term steps p y i := by
  have hsum := sumFrom_eq steps p y (p + 1) 0
  simp only [Nat.zero_add] at hsum
  exact hsum

/-- No step of an alternating series makes a term larger. -/
structure Shrinks (steps : Steps) (p : Nat) (y : Int) : Prop where
  nonpos : y ≤ 0
  bound : -y ≤ (2 ^ p : Nat)
  steps : ∀ n, (steps n).1 ≤ (steps n).2 ∧ 0 < (steps n).2

theorem Shrinks.next (h : Shrinks steps p y) (n : Nat) (t : Int) :
    (0 ≤ t → -t ≤ t * y * (steps n).1 / ((steps n).2 * 2 ^ p : Nat) ∧
      t * y * (steps n).1 / ((steps n).2 * 2 ^ p : Nat) ≤ 0) ∧
    (t ≤ 0 → 0 ≤ t * y * (steps n).1 / ((steps n).2 * 2 ^ p : Nat) ∧
      t * y * (steps n).1 / ((steps n).2 * 2 ^ p : Nat) ≤ -t) := by
  obtain ⟨hle, hden⟩ := h.steps n
  have hunit : (0 : Int) < ((steps n).2 * 2 ^ p : Nat) := by
    exact_mod_cast Nat.mul_pos hden (Nat.two_pow_pos p)
  have hfactor : 0 ≤ -y * (steps n).1 := mul_nonneg (neg_nonneg.2 h.nonpos) (Int.natCast_nonneg _)
  have hbound : -y * (steps n).1 ≤ ((steps n).2 * 2 ^ p : Nat) := by
    calc -y * (steps n).1 ≤ (2 ^ p : Nat) * (steps n).2 :=
          mul_le_mul h.bound (by exact_mod_cast hle) (Int.natCast_nonneg _) (Int.natCast_nonneg _)
      _ = ((steps n).2 * 2 ^ p : Nat) := by push_cast; ring
  generalize (((steps n).2 * 2 ^ p : Nat) : Int) = unit at hunit hbound ⊢
  have hproduct : t * y * (steps n).1 = -(t * (-y * (steps n).1)) := by ring
  rw [hproduct]
  generalize -y * ((steps n).1 : Int) = factor at hfactor hbound ⊢
  constructor
  · intro ht
    rw [Int.le_ediv_iff_mul_le hunit]
    refine ⟨?_, Int.ediv_nonpos_of_nonpos_of_neg ?_ hunit⟩
    · have := mul_le_mul_of_nonneg_left hbound ht
      linarith
    · linarith [mul_nonneg ht hfactor]
  · intro ht
    have hsign := mul_nonneg (neg_nonneg.2 ht) hfactor
    refine ⟨Int.ediv_nonneg (by linarith) hunit.le, ?_⟩
    have := mul_le_mul_of_nonneg_left hbound (neg_nonneg.2 ht)
    exact Int.ediv_le_of_le_mul hunit (by linarith)

theorem Shrinks.sumFrom_bounds (h : Shrinks steps p y) (fuel n : Nat) (t : Int) :
    (0 ≤ t → 0 ≤ sumFrom steps p y fuel n t ∧ sumFrom steps p y fuel n t ≤ t) ∧
    (t ≤ 0 → t ≤ sumFrom steps p y fuel n t ∧ sumFrom steps p y fuel n t ≤ 0) := by
  induction fuel generalizing n t with
  | zero => exact ⟨fun ht => ⟨Int.le_refl 0, ht⟩, fun ht => ⟨ht, Int.le_refl 0⟩⟩
  | succ fuel ih =>
    rw [sumFrom]
    split
    · next hzero =>
      subst hzero
      exact ⟨fun _ => ⟨Int.le_refl 0, Int.le_refl 0⟩, fun _ => ⟨Int.le_refl 0, Int.le_refl 0⟩⟩
    dsimp only
    obtain ⟨hpos, hneg⟩ := h.next n t
    obtain ⟨hpos', hneg'⟩ := ih (n + 1) (t * y * (steps n).1 / ((steps n).2 * 2 ^ p : Nat))
    constructor
    · intro ht
      obtain ⟨hlow, hhigh⟩ := hpos ht
      obtain ⟨hlow', hhigh'⟩ := hneg' hhigh
      constructor <;> linarith
    · intro ht
      obtain ⟨hlow, hhigh⟩ := hneg ht
      obtain ⟨hlow', hhigh'⟩ := hpos' hlow
      constructor <;> linarith

theorem Shrinks.sum_bounds (h : Shrinks steps p y) :
    (2 ^ p : Nat) + y * (steps 0).1 / ((steps 0).2 : Nat) ≤ sum steps p y ∧
    sum steps p y ≤ (2 ^ p : Nat) := by
  have hone : (0 : Int) < (2 ^ p : Nat) := by exact_mod_cast Nat.two_pow_pos p
  have hsecond : ((2 ^ p : Nat) : Int) * y * (steps 0).1 / ((steps 0).2 * 2 ^ p : Nat) =
      y * (steps 0).1 / ((steps 0).2 : Nat) := by
    rw [Nat.cast_mul, mul_comm ((steps 0).2 : Int), mul_assoc, Int.mul_ediv_mul_of_pos _ _ hone]
  have hnext := (h.next 0 (2 ^ p : Nat)).1 hone.le
  have hrest := (h.sumFrom_bounds p 1 _).2 hnext.2
  rw [hsecond] at hnext hrest
  have hsum : sum steps p y = (2 ^ p : Nat) + sumFrom steps p y p 1
      (y * (steps 0).1 / ((steps 0).2 : Nat)) := by
    rw [sum, sumFrom, if_neg hone.ne', ← hsecond]
  rw [hsum]
  constructor <;> linarith

end Calculator.Binary64.Series
