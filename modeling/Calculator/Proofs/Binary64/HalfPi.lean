import Calculator.Proofs.Binary64.Series
import Mathlib.Analysis.SpecialFunctions.Integrals.Basic
import Mathlib.Analysis.SpecialFunctions.Trigonometric.ArctanDeriv

/-!
# The places of half a straight angle

The series for arc tangents comes from a geometric sum under an integral. In fixed point each of its
terms is rounded down a little, and all of them together by a few units for each place. So half a
straight angle is known to within that.
-/

namespace Calculator.Binary64.Series

open Real

variable {n : ℕ}

noncomputable def sineSquare (n : ℕ) : ℝ :=
  1 / (n ^ 2 + 1)

noncomputable def arcTerm (z : ℝ) (k : ℕ) : ℝ :=
  z ^ k * ∏ i ∈ Finset.range k, (2 * (i : ℝ) + 2) / (2 * i + 3)

theorem sineSquare_pos (n : ℕ) : 0 < sineSquare n := by
  rw [sineSquare]
  positivity

theorem denominator_pos (hn : 0 < n) (θ : ℝ) : 0 < (n : ℝ) ^ 2 + Real.cos θ ^ 2 := by
  have : (0 : ℝ) < n := by exact_mod_cast hn
  positivity

noncomputable def remainder (n N : ℕ) (θ : ℝ) : ℝ :=
  sineSquare n ^ N * Real.sin θ ^ (2 * N + 1) / ((n : ℝ) ^ 2 + Real.cos θ ^ 2)

theorem remainder_succ (hn : 0 < n) (N : ℕ) (θ : ℝ) :
    remainder n N θ = sineSquare n ^ (N + 1) * Real.sin θ ^ (2 * N + 1) +
      remainder n (N + 1) θ := by
  have hden := (denominator_pos hn θ).ne'
  have hone : (n : ℝ) ^ 2 + 1 ≠ 0 := by positivity
  have hstep : 1 / ((n : ℝ) ^ 2 + Real.cos θ ^ 2) =
      sineSquare n + sineSquare n * Real.sin θ ^ 2 / ((n : ℝ) ^ 2 + Real.cos θ ^ 2) := by
    rw [sineSquare, sin_sq]
    field_simp
    ring
  rw [remainder, remainder, div_eq_mul_one_div, hstep]
  ring

theorem geometric_sum (hn : 0 < n) (N : ℕ) (θ : ℝ) : remainder n 0 θ =
    ∑ k ∈ Finset.range N, sineSquare n ^ (k + 1) * Real.sin θ ^ (2 * k + 1) + remainder n N θ := by
  induction N with
  | zero => simp
  | succ N ih =>
    rw [ih, Finset.sum_range_succ, remainder_succ hn]
    ring

theorem continuous_remainder (hn : 0 < n) (N : ℕ) : Continuous (remainder n N) :=
  Continuous.div (by fun_prop) (by fun_prop) fun θ => (denominator_pos hn θ).ne'

theorem intervalIntegrable_remainder (hn : 0 < n) (N : ℕ) :
    IntervalIntegrable (remainder n N) MeasureTheory.volume 0 π :=
  (continuous_remainder hn N).intervalIntegrable 0 π

theorem hasDerivAt_arctan_cos (hn : 0 < n) (θ : ℝ) :
    HasDerivAt (fun θ => -(arctan (Real.cos θ / n) / n)) (remainder n 0 θ) θ := by
  have hn' : (n : ℝ) ≠ 0 := by exact_mod_cast hn.ne'
  have hden := (denominator_pos hn θ).ne'
  have hderiv := (((hasDerivAt_cos θ).div_const (n : ℝ)).arctan.div_const (n : ℝ)).neg
  refine hderiv.congr_deriv ?_
  rw [remainder]
  field_simp
  ring

theorem integral_remainder_zero (hn : 0 < n) :
    ∫ θ in (0 : ℝ)..π, remainder n 0 θ = 2 / n * arctan (1 / n) := by
  rw [intervalIntegral.integral_eq_sub_of_hasDerivAt (fun θ _ => hasDerivAt_arctan_cos hn θ)
    (intervalIntegrable_remainder hn 0), cos_pi, cos_zero, neg_div, arctan_neg]
  ring

theorem integral_remainder_bounds (hn : 0 < n) (N : ℕ) :
    0 ≤ ∫ θ in (0 : ℝ)..π, remainder n N θ ∧ ∫ θ in (0 : ℝ)..π,
      remainder n N θ ≤ π * sineSquare n ^ N := by
  have hz := sineSquare_pos n
  have hone : (1 : ℝ) ≤ n := by exact_mod_cast hn
  constructor
  · apply intervalIntegral.integral_nonneg pi_nonneg
    intro θ hθ
    have hsin := sin_nonneg_of_mem_Icc hθ
    have hden := denominator_pos hn θ
    rw [remainder]
    positivity
  · have hbound : ∀ θ ∈ Set.Icc 0 π, remainder n N θ ≤ sineSquare n ^ N := by
      intro θ hθ
      have hsin := sin_nonneg_of_mem_Icc hθ
      have hpow : Real.sin θ ^ (2 * N + 1) ≤ 1 := pow_le_one₀ hsin (sin_le_one θ)
      have hden : 1 ≤ (n : ℝ) ^ 2 + Real.cos θ ^ 2 := by nlinarith [sq_nonneg (Real.cos θ)]
      rw [remainder, div_le_iff₀ (denominator_pos hn θ)]
      exact mul_le_mul le_rfl (hpow.trans hden) (pow_nonneg hsin _) (pow_pos hz N).le
    have hconst : IntervalIntegrable (fun _ : ℝ => sineSquare n ^ N) MeasureTheory.volume 0 π :=
      continuous_const.intervalIntegrable 0 π
    calc ∫ θ in (0 : ℝ)..π, remainder n N θ ≤ ∫ _ in (0 : ℝ)..π, sineSquare n ^ N :=
          intervalIntegral.integral_mono_on pi_nonneg (intervalIntegrable_remainder hn N)
            hconst hbound
      _ = π * sineSquare n ^ N := by rw [intervalIntegral.integral_const, sub_zero, smul_eq_mul]

theorem integral_partial_sum (n N : ℕ) :
    ∫ θ in (0 : ℝ)..π, ∑ k ∈ Finset.range N, sineSquare n ^ (k + 1) * Real.sin θ ^ (2 * k + 1) =
      2 * sineSquare n * ∑ k ∈ Finset.range N, arcTerm (sineSquare n) k := by
  have hint : ∀ k ∈ Finset.range N, IntervalIntegrable
    (fun θ => sineSquare n ^ (k + 1) * Real.sin θ ^ (2 * k + 1))
      MeasureTheory.volume 0 π := fun k _ => Continuous.intervalIntegrable (by fun_prop) 0 π
  rw [intervalIntegral.integral_finsetSum hint, Finset.mul_sum]
  refine Finset.sum_congr rfl fun k _ => ?_
  rw [intervalIntegral.integral_const_mul, integral_sin_pow_odd, arcTerm]
  ring

theorem arctan_eq_sum (hn : 0 < n) (N : ℕ) : 2 / n * arctan (1 / n) =
    2 * sineSquare n * ∑ k ∈ Finset.range N, arcTerm (sineSquare n) k + ∫ θ in (0 : ℝ)..π,
      remainder n N θ := by
  have hsum : IntervalIntegrable
      (fun θ => ∑ k ∈ Finset.range N, sineSquare n ^ (k + 1) * Real.sin θ ^ (2 * k + 1))
        MeasureTheory.volume 0 π :=
    Continuous.intervalIntegrable (by fun_prop) 0 π
  rw [← integral_remainder_zero hn, ← integral_partial_sum,
    ← intervalIntegral.integral_add hsum (intervalIntegrable_remainder hn N)]
  simp only [geometric_sum hn N]

/-- The arc tangent of `1 / n` is a sum of the series, up to what is left of the geometric sum. -/
theorem arctan_sub_bounds (hn : 0 < n) (N : ℕ) :
    0 ≤ ((n : ℝ) ^ 2 + 1) / n * arctan (1 / n) - ∑ k ∈ Finset.range (N + 1),
      arcTerm (sineSquare n) k ∧
    ((n : ℝ) ^ 2 + 1) / n * arctan (1 / n) - ∑ k ∈ Finset.range (N + 1), arcTerm (sineSquare n) k ≤
      2 * sineSquare n ^ N := by
  have hz := sineSquare_pos n
  have hn' : (n : ℝ) ≠ 0 := by exact_mod_cast hn.ne'
  have hscale :
      ((n : ℝ) ^ 2 + 1) / n * arctan (1 / n) = 2 / n * arctan (1 / n) / (2 * sineSquare n) := by
    rw [sineSquare]
    field_simp
  have hsums := arctan_eq_sum hn (N + 1)
  obtain ⟨hlow, hhigh⟩ := integral_remainder_bounds hn (N + 1)
  generalize ∫ θ in (0 : ℝ)..π, remainder n (N + 1) θ = rest at hsums hlow hhigh
  have hrest : ((n : ℝ) ^ 2 + 1) / n * arctan (1 / n) - ∑ k ∈ Finset.range (N + 1),
    arcTerm (sineSquare n) k =
      rest / (2 * sineSquare n) := by
    rw [hscale, hsums]
    field_simp
    ring
  rw [hrest]
  refine ⟨by positivity, ?_⟩
  rw [div_le_iff₀ (by positivity)]
  have hpi : π ≤ 4 := pi_le_four
  calc rest ≤ π * sineSquare n ^ (N + 1) := hhigh
    _ ≤ 4 * sineSquare n ^ (N + 1) := by gcongr
    _ = 2 * sineSquare n ^ N * (2 * sineSquare n) := by ring

theorem arcTerm_succ (z : ℝ) (k : ℕ) :
    arcTerm z (k + 1) = arcTerm z k * (z * ((2 * (k : ℝ) + 2) / (2 * k + 3))) := by
  rw [arcTerm, arcTerm, Finset.prod_range_succ]
  ring

theorem arc_step_bounds (k : ℕ) :
    0 ≤ (2 * (k : ℝ) + 2) / (2 * k + 3) ∧ (2 * (k : ℝ) + 2) / (2 * k + 3) ≤ 1 := by
  have hden : (0 : ℝ) < 2 * k + 3 := by positivity
  exact ⟨by positivity, by rw [div_le_one hden]; linarith⟩

theorem arcTerm_bounds {z : ℝ} (hz : 0 ≤ z) (hz1 : z ≤ 1) (k : ℕ) :
    0 ≤ arcTerm z k ∧ arcTerm z k ≤ 1 := by
  induction k with
  | zero => simp [arcTerm]
  | succ k ih =>
    obtain ⟨hstep, hstep1⟩ := arc_step_bounds k
    rw [arcTerm_succ]
    exact ⟨mul_nonneg ih.1 (mul_nonneg hz hstep), mul_le_one₀ ih.2 (mul_nonneg hz hstep)
      (mul_le_one₀ hz1 hstep hstep1)⟩

theorem intCast_ediv_bounds (a : ℤ) {b : ℕ} (hb : 0 < b) :
    ((a / (b : ℤ) : ℤ) : ℝ) ≤ a / b ∧ (a : ℝ) / b - 1 < ((a / (b : ℤ) : ℤ) : ℝ) := by
  have hb' : (0 : ℝ) < b := by exact_mod_cast hb
  have hb'' : (0 : ℤ) < b := by exact_mod_cast hb
  constructor
  · rw [le_div_iff₀ hb']
    exact_mod_cast Int.ediv_mul_le a hb''.ne'
  · rw [sub_lt_iff_lt_add, div_lt_iff₀ hb']
    exact_mod_cast Int.lt_ediv_add_one_mul_self a hb''

def fixedSquare (p n : Nat) : Int :=
  (2 ^ p / (n * n + 1) : Nat)

theorem fixedSquare_bounds (p n : ℕ) :
    (fixedSquare p n : ℝ) ≤ 2 ^ p * sineSquare n ∧ 2 ^ p * sineSquare n - 1 < fixedSquare p n := by
  have hbounds := intCast_ediv_bounds ((2 ^ p : ℕ) : ℤ) (Nat.succ_pos (n * n))
  have hvalue : 2 ^ p * sineSquare n = (((2 ^ p : ℕ) : ℤ) : ℝ) / ((n * n + 1 : ℕ) : ℝ) := by
    rw [sineSquare]
    push_cast
    ring
  rw [hvalue]
  exact hbounds

theorem sineSquare_le (hn : 2 ≤ n) : sineSquare n ≤ 1 / 5 := by
  have hn' : (2 : ℝ) ≤ n := by exact_mod_cast hn
  rw [sineSquare]
  exact one_div_le_one_div_of_le (by norm_num) (by nlinarith)

theorem term_arc_nonneg (p n k : ℕ) : 0 ≤ term arc p (fixedSquare p n) k := by
  induction k with
  | zero => exact Int.natCast_nonneg _
  | succ k ih =>
    have hfixed : 0 ≤ fixedSquare p n := Int.natCast_nonneg _
    exact Int.ediv_nonneg (mul_nonneg (mul_nonneg ih hfixed) (Int.natCast_nonneg _))
      (Int.natCast_nonneg _)

theorem term_arc_succ_bounds (p n k : ℕ) :
    (term arc p (fixedSquare p n) (k + 1) : ℝ) ≤
      (term arc p (fixedSquare p n) k : ℝ) * fixedSquare p n / 2 ^ p *
        ((2 * (k : ℝ) + 2) / (2 * k + 3)) ∧
    (term arc p (fixedSquare p n) k : ℝ) * fixedSquare p n / 2 ^ p *
      ((2 * (k : ℝ) + 2) / (2 * k + 3)) - 1 <
      term arc p (fixedSquare p n) (k + 1) := by
  have hrounded := intCast_ediv_bounds (term arc p (fixedSquare p n)
    k * fixedSquare p n * ((arc k).1 : ℤ))
    (Nat.mul_pos (Nat.succ_pos (2 * k + 2)) (Nat.two_pow_pos p))
  have hquotient : ((term arc p (fixedSquare p n) k * fixedSquare p n * ((arc k).1 : ℤ) : ℤ) : ℝ) /
      ((2 * k + 2 + 1) * 2 ^ p : ℕ) =
        (term arc p (fixedSquare p n) k : ℝ) * fixedSquare p n / 2 ^
          p * ((2 * (k : ℝ) + 2) / (2 * k + 3)) := by
    have hden : (2 * (k : ℝ) + 3) ≠ 0 := by positivity
    simp only [arc]
    push_cast
    field_simp
    ring
  rw [hquotient] at hrounded
  exact hrounded

theorem term_arc_bounds (hn : 2 ≤ n) (p k : ℕ) :
    (term arc p (fixedSquare p n) k : ℝ) ≤ 2 ^ p * arcTerm (sineSquare n) k ∧
    2 ^ p * arcTerm (sineSquare n) k - 3 ≤ term arc p (fixedSquare p n) k := by
  have hz := (sineSquare_pos n).le
  have hz5 := sineSquare_le hn
  have hunit : (0 : ℝ) < 2 ^ p := by positivity
  have hfixed : (0 : ℝ) ≤ fixedSquare p n := by
    have hnonneg : 0 ≤ fixedSquare p n := Int.natCast_nonneg _
    exact_mod_cast hnonneg
  obtain ⟨hfixedHigh, hfixedLow⟩ := fixedSquare_bounds p n
  induction k with
  | zero => simp [term, arcTerm]
  | succ k ih =>
    have hterm : (0 : ℝ) ≤ term arc p (fixedSquare p n) k := by exact_mod_cast term_arc_nonneg p n k
    obtain ⟨hnextHigh, hnextLow⟩ := term_arc_succ_bounds p n k
    obtain ⟨ht, ht1⟩ := arcTerm_bounds hz (by linarith) k
    obtain ⟨hstep, hstep1⟩ := arc_step_bounds k
    rw [arcTerm_succ]
    generalize ((2 * (k : ℝ) + 2) / (2 * k + 3)) = step at *
    generalize (term arc p (fixedSquare p n) k : ℝ) = T at *
    generalize arcTerm (sineSquare n) k = t at *
    generalize (fixedSquare p n : ℝ) = Y at *
    generalize sineSquare n = z at *
    -- One unit is lost where the term is rounded, and less than one where the square is.
    have hquotientHigh : T * Y / 2 ^ p ≤ 2 ^ p * t * z := by
      rw [div_le_iff₀ hunit]
      calc T * Y ≤ 2 ^ p * t * (2 ^ p * z) := mul_le_mul ih.1 hfixedHigh hfixed (hterm.trans ih.1)
        _ = 2 ^ p * t * z * 2 ^ p := by ring
    have hquotientLow : 2 ^ p * t * z - 8 / 5 ≤ T * Y / 2 ^ p := by
      rw [le_div_iff₀ hunit]
      have hproduct : T * (2 ^ p * z - 1) ≤ T * Y := mul_le_mul_of_nonneg_left hfixedLow.le hterm
      have hterm' : (2 ^ p * t - 3) * z * 2 ^ p ≤ T * z * 2 ^ p := by gcongr; exact ih.2
      have hsquare : 3 * z * 2 ^ p ≤ 3 / 5 * 2 ^ p := by gcongr; linarith
      have hlast : T ≤ 2 ^ p := ih.1.trans (mul_le_of_le_one_right hunit.le ht1)
      nlinarith
    constructor
    · calc (term arc p _ (k + 1) : ℝ) ≤ T * Y / 2 ^ p * step := hnextHigh
        _ ≤ 2 ^ p * t * z * step := by gcongr
        _ = 2 ^ p * (t * (z * step)) := by ring
    · have hscaled : (2 ^ p * t * z - 8 / 5) * step ≤ T * Y / 2 ^ p * step := by gcongr
      nlinarith

theorem sum_arc_bounds (hn : 2 ≤ n) (p : ℕ) :
    (sum arc p (fixedSquare p n) : ℝ) ≤ 2 ^ p * ∑ k ∈ Finset.range (p + 1),
      arcTerm (sineSquare n) k ∧
    2 ^ p * ∑ k ∈ Finset.range (p + 1), arcTerm (sineSquare n) k - 3 * (p + 1) ≤
      sum arc p (fixedSquare p n) := by
  rw [sum_eq, Int.cast_sum, Finset.mul_sum]
  constructor
  · exact Finset.sum_le_sum fun k _ => (term_arc_bounds hn p k).1
  · rw [sub_le_iff_le_add]
    calc ∑ k ∈ Finset.range (p + 1), 2 ^ p * arcTerm (sineSquare n) k
        ≤ ∑ k ∈ Finset.range (p + 1), ((term arc p (fixedSquare p n) k : ℝ) + 3) :=
          Finset.sum_le_sum fun k _ => by linarith [(term_arc_bounds hn p k).2]
      _ = ∑ k ∈ Finset.range (p + 1), (term arc p (fixedSquare p n) k : ℝ) + 3 * (p + 1) := by
        rw [Finset.sum_add_distrib, Finset.sum_const, Finset.card_range, nsmul_eq_mul]
        push_cast
        ring

theorem arcTangentOfInverse_bounds (hn : 2 ≤ n) (p : ℕ) :
    (arcTangentOfInverse p n : ℝ) ≤ 2 ^ p * arctan (1 / n) ∧
    2 ^ p * arctan (1 / n) - (2 * p + 3) ≤ arcTangentOfInverse p n := by
  have hn' : (2 : ℝ) ≤ n := by exact_mod_cast hn
  have hz := (sineSquare_pos n).le
  have hz5 := sineSquare_le hn
  obtain ⟨hsumHigh, hsumLow⟩ := sum_arc_bounds hn p
  obtain ⟨hrestLow, hrestHigh⟩ := arctan_sub_bounds (Nat.lt_of_lt_of_le Nat.two_pos hn) p
  have hrounded := intCast_ediv_bounds ((n : ℤ) * sum arc p (fixedSquare p n))
    (Nat.succ_pos (n * n))
  have hquotient : (((n : ℤ) * sum arc p (fixedSquare p n) : ℤ) : ℝ) / ((n * n + 1 : ℕ) : ℝ) =
      n / ((n : ℝ) ^ 2 + 1) * sum arc p (fixedSquare p n) := by
    push_cast
    ring
  rw [hquotient] at hrounded
  have hvalue :
      arcTangentOfInverse p n = (n : ℤ) * sum arc p (fixedSquare p n) / ((n * n + 1 : ℕ) : ℤ) := rfl
  rw [hvalue]
  have harctan : 2 ^ p * arctan (1 / n) = n / ((n : ℝ) ^ 2 + 1) *
      (2 ^ p * (((n : ℝ) ^ 2 + 1) / n * arctan (1 / n))) := by
    field_simp
  have hrest : (2 : ℝ) ^ p * (2 * sineSquare n ^ p) ≤ 2 := by
    have hpow : (2 * sineSquare n) ^ p ≤ 1 := pow_le_one₀ (by linarith) (by linarith)
    rw [mul_pow] at hpow
    linarith
  have hfactor : 0 ≤ n / ((n : ℝ) ^ 2 + 1) := by positivity
  have hfactor' : n / ((n : ℝ) ^ 2 + 1) ≤ 2 / 5 := by
    rw [div_le_div_iff₀ (by positivity) (by norm_num)]
    nlinarith
  rw [harctan]
  generalize ((n : ℝ) ^ 2 + 1) / n * arctan (1 / n) = scaled at *
  generalize ∑ k ∈ Finset.range (p + 1), arcTerm (sineSquare n) k = series at *
  generalize (sum arc p (fixedSquare p n) : ℝ) = S at *
  generalize n / ((n : ℝ) ^ 2 + 1) = factor at *
  have hunit : (0 : ℝ) < 2 ^ p := by positivity
  have hseries : 2 ^ p * series ≤ 2 ^ p * scaled := by gcongr; linarith
  have hscaled : 2 ^ p * scaled ≤ 2 ^ p * series + 2 := by
    have := mul_le_mul_of_nonneg_left hrestHigh hunit.le
    linarith
  constructor
  · exact hrounded.1.trans (mul_le_mul_of_nonneg_left (hsumHigh.trans hseries) hfactor)
  · have hlow : factor * (2 ^ p * scaled - (3 * p + 5)) ≤ factor * S :=
      mul_le_mul_of_nonneg_left (by linarith) hfactor
    have hloss : factor * (3 * p + 5) ≤ 2 / 5 * (3 * p + 5) := by gcongr
    have hp : (0 : ℝ) ≤ p := Nat.cast_nonneg p
    linarith

/-- Half a straight angle is known to within a few units for each place. -/
theorem abs_halfPi_sub_le (p : ℕ) : |(halfPi p : ℝ) - 2 ^ p * (π / 2)| ≤ 16 * p + 24 := by
  obtain ⟨hfiveHigh, hfiveLow⟩ := arcTangentOfInverse_bounds (n := 5) (by decide) p
  obtain ⟨hotherHigh, hotherLow⟩ := arcTangentOfInverse_bounds (n := 239) (by decide) p
  have hmachin := four_mul_arctan_inv_5_sub_arctan_inv_239
  have hvalue : (halfPi p : ℝ) = 2 * (4 * arcTangentOfInverse p 5 - arcTangentOfInverse p 239) := by
    rw [halfPi]
    push_cast
    rfl
  have hpi : 2 ^ p * (π / 2) = 2 * (4 * (2 ^ p * arctan (1 / (5 : ℕ))) -
      2 ^ p * arctan (1 / (239 : ℕ))) := by
    have hhalf : π / 2 = 2 * (4 * arctan 5⁻¹ - arctan 239⁻¹) := by rw [hmachin]; ring
    rw [hhalf]
    push_cast
    rw [one_div, one_div]
    ring
  have hp : (0 : ℝ) ≤ p := Nat.cast_nonneg p
  rw [hvalue, hpi, abs_le]
  constructor <;> linarith

end Calculator.Binary64.Series
