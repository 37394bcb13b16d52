import Calculator.Proofs.Binary64.Pattern

/-!
# The nearest double depends on the value alone

The exponent chosen for a fraction is read off the binary logarithm of its value, so fractions of
one value have one nearest double, however they are written. The fraction of a double leads back to
it.
-/

namespace Calculator.Binary64

variable {num den : Nat}

theorem log_natCast_mul_zpow {b n : Nat} (hb : 1 < b) (hn : n ≠ 0) (e : Int) :
    Int.log b (n * (b : ℚ) ^ e) = Nat.log b n + e := by
  have hb' : (0 : ℚ) < b := by exact_mod_cast (by omega : 0 < b)
  have hpos : (0 : ℚ) < n * (b : ℚ) ^ e := mul_pos (by exact_mod_cast Nat.pos_of_ne_zero hn)
    (by positivity)
  have hlow : (b : ℚ) ^ Nat.log b n ≤ n := by exact_mod_cast Nat.pow_log_le_self b hn
  have hhigh : (n : ℚ) < (b : ℚ) ^ (Nat.log b n + 1) := by
    exact_mod_cast Nat.lt_pow_succ_log_self hb n
  have h₁ := (Int.zpow_le_iff_le_log (x := Nat.log b n + e) hb hpos).1 (by
    rw [zpow_add₀ hb'.ne', zpow_natCast]
    gcongr)
  have h₂ := (Int.lt_zpow_iff_log_lt (x := (Nat.log b n + 1 : Nat) + e) hb hpos).1 (by
    rw [zpow_add₀ hb'.ne', zpow_natCast]
    gcongr)
  omega

theorem log_div_bounds (hnum : num ≠ 0) (hden : den ≠ 0) :
    (num.log2 : Int) - den.log2 - 1 ≤ Int.log 2 (num / den : ℚ) ∧
      Int.log 2 (num / den : ℚ) ≤ (num.log2 : Int) - den.log2 := by
  have hd : (0 : ℚ) < den := by exact_mod_cast Nat.pos_of_ne_zero hden
  have hpos : (0 : ℚ) < num / den := div_pos (by exact_mod_cast Nat.pos_of_ne_zero hnum) hd
  have hnumLow : (2 : ℚ) ^ (num.log2 : ℤ) ≤ num := by exact_mod_cast Nat.log2_self_le hnum
  have hnumHigh : (num : ℚ) < 2 ^ (num.log2 + 1 : ℤ) := by
    exact_mod_cast Nat.lt_log2_self (n := num)
  have hdenLow : (2 : ℚ) ^ (den.log2 : ℤ) ≤ den := by exact_mod_cast Nat.log2_self_le hden
  have hdenHigh : (den : ℚ) < 2 ^ (den.log2 + 1 : ℤ) := by
    exact_mod_cast Nat.lt_log2_self (n := den)
  constructor
  · refine (Int.zpow_le_iff_le_log (b := 2) (by decide) hpos).1 ?_
    rw [le_div_iff₀ hd]
    calc (2 : ℚ) ^ ((num.log2 : ℤ) - den.log2 - 1) * den
        ≤ 2 ^ ((num.log2 : ℤ) - den.log2 - 1) * 2 ^ (den.log2 + 1 : ℤ) := by gcongr
      _ = 2 ^ (num.log2 : ℤ) := by rw [← zpow_add₀ (by norm_num)]; congr 1; ring
      _ ≤ num := hnumLow
  · refine Int.lt_add_one_iff.1 ((Int.lt_zpow_iff_log_lt (b := 2) (by decide) hpos).1 ?_)
    rw [div_lt_iff₀ hd]
    calc (num : ℚ) < 2 ^ (num.log2 + 1 : ℤ) := hnumHigh
      _ = 2 ^ ((num.log2 : ℤ) - den.log2 + 1) * 2 ^ (den.log2 : ℤ) := by
        rw [← zpow_add₀ (by norm_num)]; congr 1; ring
      _ ≤ 2 ^ ((num.log2 : ℤ) - den.log2 + 1) * den := by gcongr

theorem wide_iff (hnum : num ≠ 0) (hden : den ≠ 0) (guess : Int) :
    (if 0 ≤ guess then den * 2 ^ (guess.toNat + 53) ≤ num else den * 2 ^ 53 ≤
      num * 2 ^ (-guess).toNat) ↔
      guess + 53 ≤ Int.log 2 (num / den : ℚ) := by
  have hd : (0 : ℚ) < den := by exact_mod_cast Nat.pos_of_ne_zero hden
  have hpos : (0 : ℚ) < num / den := div_pos (by exact_mod_cast Nat.pos_of_ne_zero hnum) hd
  rw [← Int.zpow_le_iff_le_log (b := 2) (by decide) hpos, le_div_iff₀ hd]
  split
  · next h =>
    lift guess to ℕ using h with k
    rw [Int.toNat_natCast, mul_comm]
    exact_mod_cast Iff.rfl
  · next h =>
    obtain ⟨k, rfl⟩ := Int.exists_eq_neg_ofNat (Int.le_of_not_le h)
    have hpow : (2 : ℚ) ^ (-(k : ℤ) + 53) * den = den * 2 ^ 53 / 2 ^ k := by
      rw [zpow_add₀ (by norm_num), zpow_neg, zpow_natCast]
      field_simp
    rw [Nat.cast_ofNat, hpow, div_le_iff₀ (by positivity), neg_neg, Int.toNat_natCast]
    exact_mod_cast Iff.rfl

/-- The exponent gives the value a mantissa of 53 bits, unless it would fall below the least one. -/
theorem exponentOfRatio_eq_log (hnum : num ≠ 0) (hden : den ≠ 0) :
    exponentOfRatio num den = max (Int.log 2 (num / den : ℚ) - 52) leastExponent := by
  obtain ⟨hlow, hhigh⟩ := log_div_bounds hnum hden
  have hwide := wide_iff hnum hden ((num.log2 : Int) - den.log2 - 53)
  simp only [exponentOfRatio, hwide]
  split <;> congr 1 <;> omega

theorem roundDiv_mul_right {c : Nat} (hc : 0 < c) :
    roundDiv (num * c) (den * c) = roundDiv num den := by
  have hlt : den * c < 2 * (num % den * c) ↔ den < 2 * (num % den) := by
    rw [← Nat.mul_assoc]
    exact Nat.mul_lt_mul_right hc
  have heq : den * c = 2 * (num % den * c) ↔ den = 2 * (num % den) := by
    rw [← Nat.mul_assoc]
    exact Nat.mul_left_inj hc.ne'
  simp only [roundDiv, Nat.mul_div_mul_right _ _ hc, Nat.mul_mod_mul_right, hlt, heq]

theorem roundDiv_mul_self {c : Nat} (hc : 0 < c) : roundDiv (num * c) c = num := by
  have h : roundDiv (num * c) (1 * c) = roundDiv num 1 := roundDiv_mul_right hc
  rwa [Nat.one_mul, roundDiv_one] at h

theorem patternOfRatio_mul_right {c : Nat} (hden : den ≠ 0) (hc : 0 < c) :
    patternOfRatio (num * c) (den * c) = patternOfRatio num den := by
  by_cases hnum : num = 0
  · simp [hnum, patternOfRatio]
  have hc' : (c : ℚ) ≠ 0 := by exact_mod_cast hc.ne'
  have hexponent : exponentOfRatio (num * c) (den * c) = exponentOfRatio num den := by
    rw [exponentOfRatio_eq_log (Nat.mul_ne_zero hnum hc.ne') (Nat.mul_ne_zero hden hc.ne'),
      exponentOfRatio_eq_log hnum hden]
    push_cast
    rw [mul_div_mul_right _ _ hc']
  simp only [patternOfRatio, Nat.mul_eq_zero, hnum, hc.ne', or_self, if_false, hexponent]
  congr 1
  split
  · rw [Nat.mul_right_comm, roundDiv_mul_right hc]
  · rw [Nat.mul_right_comm, roundDiv_mul_right hc]

theorem patternOfRatio_congr {num' den' : Nat} (hden : den ≠ 0) (hden' : den' ≠ 0)
    (h : (num / den : ℚ) = num' / den') : patternOfRatio num den = patternOfRatio num' den' := by
  have hcross : num * den' = num' * den := by
    rw [div_eq_div_iff (by exact_mod_cast hden) (by exact_mod_cast hden')] at h
    exact_mod_cast h
  rw [← patternOfRatio_mul_right hden (Nat.pos_of_ne_zero hden'), hcross, Nat.mul_comm den,
    patternOfRatio_mul_right hden' (Nat.pos_of_ne_zero hden)]

def fractionOf (b m : Nat) (e : Int) : Nat × Nat :=
  if 0 ≤ e then (m * b ^ e.toNat, 1) else (m, b ^ (-e).toNat)

theorem fractionOf_den_ne_zero {b : Nat} (hb : b ≠ 0) (m : Nat)
    (e : Int) : (fractionOf b m e).2 ≠ 0 := by
  unfold fractionOf
  split
  · exact Nat.one_ne_zero
  · exact pow_ne_zero _ hb

theorem fractionOf_value (b m : Nat) (e : Int) :
    ((fractionOf b m e).1 / (fractionOf b m e).2 : ℚ) = m * (b : ℚ) ^ e := by
  unfold fractionOf
  split
  · next h =>
    lift e to ℕ using h with k
    simp
  · next h =>
    obtain ⟨k, rfl⟩ := Int.exists_eq_neg_ofNat (Int.le_of_not_le h)
    simp [div_eq_mul_inv]

variable {mantissa : Nat} {exponent : Int}

theorem ratio_den_ne_zero (mantissa : Nat) (exponent : Int) : (ratio mantissa exponent).2 ≠ 0 :=
  fractionOf_den_ne_zero (by decide) mantissa exponent

theorem ratio_value (mantissa : Nat) (exponent : Int) :
    ((ratio mantissa exponent).1 / (ratio mantissa exponent).2 : ℚ) = mantissa * 2 ^ exponent :=
  fractionOf_value 2 mantissa exponent

theorem patternOfRatio_ratio (hmantissa : mantissa ≠ 0) (hwidth : mantissa < 2 ^ 53)
    (hleast : leastExponent ≤ exponent) (hnormal : 2 ^ 52 ≤ mantissa ∨ exponent = leastExponent) :
    patternOfRatio (ratio mantissa exponent).1 (ratio mantissa exponent).2 =
      patternOf mantissa exponent := by
  have hlog : mantissa.log2 < 53 := (Nat.log2_lt hmantissa).2 hwidth
  have hnum : (ratio mantissa exponent).1 ≠ 0 := by
    unfold ratio
    split <;> simp [hmantissa]
  have hexponent :
      exponentOfRatio (ratio mantissa exponent).1 (ratio mantissa exponent).2 = exponent := by
    have hvalue := log_natCast_mul_zpow (b := 2) (by decide) hmantissa exponent
    rw [Nat.cast_ofNat, ← Nat.log2_eq_log_two] at hvalue
    rw [exponentOfRatio_eq_log hnum (ratio_den_ne_zero mantissa exponent), ratio_value, hvalue]
    rcases hnormal with h | h
    · have := (Nat.le_log2 hmantissa).2 h
      omega
    · omega
  simp only [patternOfRatio, hnum, if_false, hexponent, patternOf]
  congr 1
  unfold ratio
  split
  · simp only [Nat.one_mul]
    exact roundDiv_mul_self (Nat.two_pow_pos _)
  · exact roundDiv_mul_self (Nat.two_pow_pos _)

end Calculator.Binary64
