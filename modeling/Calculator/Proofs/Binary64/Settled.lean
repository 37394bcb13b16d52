import Calculator.Proofs.Binary64.Moderate
import Calculator.Proofs.Binary64.Rounded

/-!
# Approximations beside the doubles

An approximation is rounded twice, first to the kept places and then to a double. Neither of them
takes it past a double that has no more than the kept places.
-/

namespace Calculator.Binary64

variable {num den k : Nat}

theorem roundDiv_le (hden : den ≠ 0) (h : num ≤ den * k) : roundDiv num den ≤ k := by
  rcases h.lt_or_eq with hlt | rfl
  · exact roundDiv_le_of_lt hlt
  · rw [Nat.mul_comm, roundDiv_mul_self (Nat.pos_of_ne_zero hden)]

theorem le_roundDiv (hden : den ≠ 0) (h : den * k ≤ num) : k ≤ roundDiv num den := by
  have hquotient : k ≤ num / den := (Nat.le_div_iff_mul_le (Nat.pos_of_ne_zero hden)).2
    (by rwa [Nat.mul_comm])
  simp only [roundDiv]
  split <;> omega

theorem exists_places {bound m shift : Nat} (hvalue : patternValue bound * 2 ^ keptPlaces = m)
    (h : keptPlaces ≤ shift) :
    ∃ n : Nat, patternValue bound = n / 2 ^ shift := by
  obtain ⟨more, rfl⟩ := Nat.exists_eq_add_of_le h
  refine ⟨m * 2 ^ more, ?_⟩
  rw [eq_div_iff (by positivity), Nat.cast_mul, ← hvalue, pow_add]
  push_cast
  ring

theorem exists_settle (negative : Bool) (hden : den ≠ 0) (h : num ≤ den) :
    ∃ pattern, pattern < infinityPattern ∧
    settle negative num den = floatOfPattern negative pattern ∧
    ∀ bound m : Nat, patternValue bound * 2 ^ keptPlaces = m →
      ((num / den : ℚ) ≤ patternValue bound → pattern ≤ bound) ∧
      (patternValue bound ≤ (num / den : ℚ) → bound ≤ pattern) := by
  have hle : num ≤ den * 2 ^ 0 := h.trans_eq (Nat.mul_one den).symm
  obtain ⟨shift, hshift, hsettle⟩ := settle_eq negative (Nat.zero_le 100) hle
  rw [Nat.add_zero] at hshift
  have hunit : 2 ^ shift ≠ 0 := (Nat.two_pow_pos shift).ne'
  have hkept : roundDiv (num * 2 ^ shift) den ≤ 2 ^ shift :=
    roundDiv_le hden (Nat.mul_le_mul_right _ h)
  have hfinite : patternOfRatio (roundDiv (num * 2 ^ shift) den) (2 ^ shift) < infinityPattern := by
    have hpattern := patternOfRatio_le hunit (hkept.trans_eq (Nat.mul_one (2 ^ shift)).symm :
      _ ≤ 2 ^ shift * 2 ^ 0)
    rw [infinityPattern]
    omega
  refine ⟨_, hfinite, by rw [hsettle, floatOfRatio,
    Nat.min_eq_left hfinite.le], fun bound m hvalue => ?_⟩
  obtain ⟨n, hplaces⟩ := exists_places hvalue hshift
  have hd : (0 : ℚ) < den := by exact_mod_cast Nat.pos_of_ne_zero hden
  have hu : (0 : ℚ) < 2 ^ shift := by positivity
  constructor
  · intro hle
    rw [hplaces, div_le_div_iff₀ hd hu] at hle
    have hround : roundDiv (num * 2 ^ shift) den ≤ n := by
      apply roundDiv_le hden
      rw [Nat.mul_comm den]
      exact_mod_cast hle
    apply patternOfRatio_le_of_le hunit
    rw [hplaces]
    push_cast
    gcongr
  · intro hle
    rw [hplaces, div_le_div_iff₀ hu hd] at hle
    have hround : n ≤ roundDiv (num * 2 ^ shift) den := by
      apply le_roundDiv hden
      rw [Nat.mul_comm den]
      exact_mod_cast hle
    apply le_patternOfRatio_of_le hunit
    rw [hplaces]
    push_cast
    gcongr

end Calculator.Binary64
