import Calculator.Binary64.Circular
import Calculator.Proofs.Binary64.Nearest
import Calculator.Proofs.Binary64.Operations

/-!
# Doubles far from the largest ones

The double nearest to a fraction of moderate size is finite, with room left for a product. The
circular functions and their inverses settle for fractions of a few units at most, so they have
finite values.
-/

namespace Calculator.Binary64

variable {x : Float} {negative : Bool} {num den k mantissa : Nat} {exponent : Int}

/-- A finite double with an exponent well below the greatest one. -/
def IsModerate (x : Float) : Prop :=
  ∃ negative mantissa exponent, ofFloat x = .finite negative mantissa exponent ∧
    mantissa < 2 ^ 53 ∧ exponent ≤ 960

theorem IsModerate.isFinite (h : IsModerate x) : x.isFinite = true := by
  obtain ⟨negative, mantissa, exponent, hparts, -⟩ := h
  exact isFinite_of_ofFloat hparts

theorem roundDiv_le_of_lt (h : num < den * k) : roundDiv num den ≤ k := by
  have hquotient : num / den < k := Nat.div_lt_of_lt_mul h
  simp only [roundDiv]
  split <;> omega

theorem log_le_of_le_mul (hnum : num ≠ 0) (hden : den ≠ 0) (h : num ≤ den * 2 ^ k) :
    Int.log 2 (num / den : ℚ) ≤ k := by
  have hd : (0 : ℚ) < den := by exact_mod_cast Nat.pos_of_ne_zero hden
  have hpos : (0 : ℚ) < num / den := div_pos (by exact_mod_cast Nat.pos_of_ne_zero hnum) hd
  have hle : (num / den : ℚ) ≤ 2 ^ (k : ℤ) := by
    rw [div_le_iff₀ hd, mul_comm]
    exact_mod_cast h
  have hpow : Int.log 2 ((2 : ℚ) ^ (k : ℤ)) = k := by
    exact_mod_cast Int.log_zpow (R := ℚ) (b := 2) (by decide) k
  rw [← hpow]
  exact Int.log_mono_right hpos hle

theorem patternOfRatio_le (hden : den ≠ 0) (h : num ≤ den * 2 ^ k) :
    patternOfRatio num den ≤ (k + 1024) * 2 ^ 52 := by
  by_cases hnum : num = 0
  · rw [hnum, patternOfRatio, if_pos rfl]
    exact Nat.zero_le _
  have hlog := log_le_of_le_mul hnum hden h
  have hexponent := exponentOfRatio_eq_log hnum hden
  -- The exponent is not too small for a mantissa of 53 bits, and one bit more comes from rounding.
  have hwide := (wide_iff hnum hden (exponentOfRatio num den)).not.2 (by omega)
  rw [leastExponent] at hexponent
  rw [patternOfRatio, if_neg hnum]
  have hmantissa : (if 0 ≤ exponentOfRatio num den then roundDiv num
    (den * 2 ^ (exponentOfRatio num den).toNat)
      else roundDiv (num * 2 ^ (-exponentOfRatio num den).toNat) den) ≤ 2 ^ 53 := by
    split
    · next hpos =>
      rw [if_pos hpos, Nat.pow_add, ← Nat.mul_assoc, Nat.not_le] at hwide
      exact roundDiv_le_of_lt hwide
    · next hneg =>
      rw [if_neg hneg, Nat.not_le] at hwide
      exact roundDiv_le_of_lt hwide
  simp only [leastExponent]
  omega

theorem isModerate_floatOfRatio (hden : den ≠ 0) (hk : k ≤ 1000) (h : num ≤ den * 2 ^ k) :
    IsModerate (floatOfRatio negative num den) := by
  have hpattern := patternOfRatio_le hden h
  have hlt : patternOfRatio num den < infinityPattern := by
    rw [infinityPattern]
    omega
  obtain ⟨mantissa, exponent, hparts, hpatternOf, hwidth, -⟩ := ofPattern_eq_finite negative hlt
  rw [floatOfRatio, Nat.min_eq_left (Nat.le_of_lt hlt)]
  refine ⟨negative, mantissa, exponent, (ofFloat_floatOfPattern hlt).trans hparts, hwidth, ?_⟩
  rw [patternOf, leastExponent] at hpatternOf
  omega

theorem settle_eq (negative : Bool) (hk : k ≤ 100) (h : num ≤ den * 2 ^ k) :
    ∃ shift, keptPlaces ≤ shift + k ∧
    settle negative num den = floatOfRatio negative (roundDiv (num * 2 ^ shift) den)
    (2 ^ shift) := by
  have hlog : num.log2 ≤ den.log2 + k := by
    by_cases hnum : num = 0
    · rw [hnum]
      exact Nat.zero_le _
    · have hlt : num < 2 ^ (den.log2 + k + 1) := by
        calc num ≤ den * 2 ^ k := h
          _ < 2 ^ (den.log2 + 1) * 2 ^ k := Nat.mul_lt_mul_of_pos_right Nat.lt_log2_self
            (Nat.two_pow_pos k)
          _ = 2 ^ (den.log2 + k + 1) := by rw [← Nat.pow_add]; congr 1; omega
      exact Nat.lt_succ_iff.1 ((Nat.log2_lt hnum).2 hlt)
  obtain ⟨shift, hshift⟩ : ∃ shift : Nat, (keptPlaces : Int) + den.log2 - num.log2 = shift :=
    Int.eq_ofNat_of_zero_le (by rw [keptPlaces]; omega)
  have hpos : 0 < shift := by
    rw [keptPlaces] at hshift
    omega
  refine ⟨shift, by omega, ?_⟩
  simp only [settle, hshift]
  rw [if_pos (Int.natCast_nonneg shift), Int.toNat_natCast, ratio, if_neg (by omega),
    neg_neg, Int.toNat_natCast]

theorem isModerate_settle (hden : den ≠ 0) (hk : k ≤ 100) (h : num ≤ den * 2 ^ k) :
    IsModerate (settle negative num den) := by
  obtain ⟨shift, -, hsettle⟩ := settle_eq negative hk h
  have hkept : roundDiv (num * 2 ^ shift) den ≤ 2 ^ shift * 2 ^ (k + 1) := by
    apply roundDiv_le_of_lt
    calc num * 2 ^ shift ≤ den * 2 ^ k * 2 ^ shift := Nat.mul_le_mul_right _ h
      _ < den * (2 ^ shift * 2 ^ (k + 1)) := by
        have hd := Nat.pos_of_ne_zero hden
        have hdouble : 2 ^ shift * 2 ^ (k + 1) = 2 * (2 ^ k * 2 ^ shift) := by ring
        rw [hdouble, Nat.mul_assoc]
        have hprod : 0 < 2 ^ k * 2 ^ shift := Nat.mul_pos (Nat.two_pow_pos k)
          (Nat.two_pow_pos shift)
        exact Nat.mul_lt_mul_of_pos_left (by omega) hd
  rw [hsettle]
  exact isModerate_floatOfRatio (Nat.two_pow_pos shift).ne' (by omega) hkept

theorem isModerate_settle_of_le (hden : den ≠ 0) (h : num ≤ den) :
    IsModerate (settle negative num den) :=
  isModerate_settle hden (Nat.zero_le 100) (by rwa [Nat.pow_zero, Nat.mul_one])

theorem isFinite_sin (h : x.isFinite = true) : (sin x).isFinite = true := by
  obtain ⟨negative, mantissa, exponent, hparts, -⟩ := exists_parts h
  simp only [sin, hparts]
  split
  · exact h
  · exact (isModerate_settle_of_le (Nat.two_pow_pos _).ne' (Nat.min_le_right _ _)).isFinite

theorem isFinite_cos (h : x.isFinite = true) : (cos x).isFinite = true := by
  obtain ⟨negative, mantissa, exponent, hparts, -⟩ := exists_parts h
  simp only [cos, hparts]
  exact (isModerate_settle_of_le (Nat.two_pow_pos _).ne' (Nat.min_le_right _ _)).isFinite

theorem halfPi_le : (Series.halfPi workPlaces).toNat ≤ 2 * 2 ^ workPlaces := by
  decide +kernel

theorem arcTangent_le (num den : Nat) : (arcTangent num den).1 ≤ (arcTangent num den).2 :=
  Nat.min_le_right _ _

theorem arcTangent_den_ne_zero (h : 0 < num + den) : (arcTangent num den).2 ≠ 0 := by
  have hsquare : 0 < num * num + den * den := by
    rcases Nat.eq_zero_or_pos num with rfl | hnum
    · exact Nat.add_pos_right _ (Nat.mul_pos (by omega) (by omega))
    · exact Nat.add_pos_left (Nat.mul_pos hnum hnum) _
  exact (Nat.mul_pos hsquare (Nat.two_pow_pos workPlaces)).ne'

theorem isModerate_atan (h : x.isFinite = true) : IsModerate (atan x) := by
  obtain ⟨negative, mantissa, exponent, hparts, -⟩ := exists_parts h
  have hden := Nat.pos_of_ne_zero (ratio_den_ne_zero mantissa exponent)
  simp only [atan, hparts]
  split
  · exact isModerate_settle_of_le (arcTangent_den_ne_zero (by omega)) (arcTangent_le _ _)
  · obtain ⟨⟨a, b⟩, hab⟩ : ∃ ab, arcTangent (ratio mantissa exponent).2
      (ratio mantissa exponent).1 = ab := ⟨_, rfl⟩
    have hunit : b ≠ 0 := by
      have hne := arcTangent_den_ne_zero (Nat.add_pos_left hden (ratio mantissa exponent).1)
      rwa [hab] at hne
    rw [hab]
    have hle :
        (Series.halfPi workPlaces).toNat * b - a * 2 ^ workPlaces ≤ b * 2 ^ workPlaces * 2 ^ 1 := by
      calc (Series.halfPi workPlaces).toNat * b - a * 2 ^ workPlaces
          ≤ (Series.halfPi workPlaces).toNat * b := Nat.sub_le _ _
        _ ≤ 2 * 2 ^ workPlaces * b := Nat.mul_le_mul_right b halfPi_le
        _ = b * 2 ^ workPlaces * 2 ^ 1 := by ring
    exact isModerate_settle (Nat.mul_ne_zero hunit (Nat.two_pow_pos _).ne') (by omega) hle

theorem arcSines_le (num den : Nat) :
    (arcSines num den).1 + (arcSines num den).2 ≤ arcUnit den * 2 := by
  have hfour : (4 : Nat) ^ workPlaces = 2 ^ workPlaces * 2 ^ workPlaces := by
    rw [← Nat.mul_pow]
  rw [arcSines_add, arcUnit, hfour]
  calc (Series.halfPi workPlaces).toNat * den * 2 ^ workPlaces
      ≤ 2 * 2 ^ workPlaces * den * 2 ^ workPlaces :=
        Nat.mul_le_mul_right _ (Nat.mul_le_mul_right den halfPi_le)
    _ = den * (2 ^ workPlaces * 2 ^ workPlaces) * 2 := by ring

theorem arcUnit_ne_zero (h : den ≠ 0) : arcUnit den ≠ 0 :=
  Nat.mul_ne_zero h (Nat.pow_pos (by decide)).ne'

theorem isModerate_asin (h : ofFloat x = .finite negative mantissa exponent)
    (hle : (ratio mantissa exponent).1 ≤ (ratio mantissa exponent).2) : IsModerate (asin x) := by
  have hsum := arcSines_le (ratio mantissa exponent).1 (ratio mantissa exponent).2
  have hangle : (arcSines (ratio mantissa exponent).1 (ratio mantissa exponent).2).1 ≤
      arcUnit (ratio mantissa exponent).2 * 2 ^ 1 := by omega
  simp only [asin, h]
  rw [if_neg (Nat.not_lt.2 hle)]
  exact isModerate_settle (arcUnit_ne_zero (ratio_den_ne_zero mantissa exponent)) (by omega) hangle

theorem isModerate_acos (h : ofFloat x = .finite negative mantissa exponent)
    (hle : (ratio mantissa exponent).1 ≤ (ratio mantissa exponent).2) : IsModerate (acos x) := by
  obtain ⟨⟨angle, complement⟩, hangles⟩ :
    ∃ angles, arcSines (ratio mantissa exponent).1 (ratio mantissa exponent).2 = angles := ⟨_, rfl⟩
  have hsum := arcSines_le (ratio mantissa exponent).1 (ratio mantissa exponent).2
  rw [hangles] at hsum
  have hangle : (if negative then angle + (angle + complement) else complement) ≤
      arcUnit (ratio mantissa exponent).2 * 2 ^ 2 := by
    split <;> omega
  simp only [acos, h, hangles]
  rw [if_neg (Nat.not_lt.2 hle)]
  exact isModerate_settle (arcUnit_ne_zero (ratio_den_ne_zero mantissa exponent)) (by omega) hangle

end Calculator.Binary64
