import Calculator.Proofs.Binary64.Nearest

/-!
# The spacing of the doubles

The patterns without sign stand for an increasing sequence of numbers. Two neighbours differ by a
power of two that is not small against either of them, and no pattern stands for a number closer to
a fraction than the one found for it.
-/

namespace Calculator.Binary64

variable {mantissa num den pattern : Nat} {exponent : Int}

/-- A mantissa of 53 bits with its exponent, or a shorter one with the least exponent. -/
structure IsNormalized (mantissa : Nat) (exponent : Int) : Prop where
  width : mantissa < 2 ^ 53
  least : leastExponent ≤ exponent
  normal : 2 ^ 52 ≤ mantissa ∨ exponent = leastExponent

/-- The number that a pattern stands for, if the exponents went on where infinity is. -/
def patternValue (pattern : Nat) : ℚ :=
  if pattern / 2 ^ 52 = 0 then pattern * 2 ^ leastExponent
  else (2 ^ 52 + pattern % 2 ^ 52 : Nat) * 2 ^ (((pattern / 2 ^ 52 : Nat) : Int) - 1075)

theorem patternValue_zero : patternValue 0 = 0 := by
  simp [patternValue]

theorem patternValue_patternOf (hwidth : mantissa ≤ 2 ^ 53) (hleast : leastExponent ≤ exponent)
    (hnormal : 2 ^ 52 ≤ mantissa ∨ exponent = leastExponent) :
    patternValue (patternOf mantissa exponent) = mantissa * 2 ^ exponent := by
  obtain ⟨k, rfl⟩ : ∃ k : Nat, exponent = leastExponent + k :=
    ⟨(exponent - leastExponent).toNat, by omega⟩
  have hpattern : patternOf mantissa (leastExponent + k) = k * 2 ^ 52 + mantissa := by
    rw [patternOf]
    congr
    omega
  rw [hpattern]
  rcases Nat.lt_or_ge mantissa (2 ^ 52) with hsubnormal | hwide
  · obtain rfl : k = 0 := by omega
    rw [patternValue, if_pos (by omega)]
    simp
  rcases Nat.eq_or_lt_of_le hwidth with rfl | hnarrow
  · have hfield : (k * 2 ^ 52 + 2 ^ 53) / 2 ^ 52 = k + 2 := by omega
    have hfraction : (k * 2 ^ 52 + 2 ^ 53) % 2 ^ 52 = 0 := by omega
    have hexponent : (((k + 2 : Nat) : Int) - 1075) = leastExponent + k + 1 := by
      rw [leastExponent]
      omega
    rw [patternValue, hfield, if_neg (Nat.succ_ne_zero _), hfraction,
      hexponent, zpow_add_one₀ two_ne_zero]
    push_cast
    ring
  · have hfield : (k * 2 ^ 52 + mantissa) / 2 ^ 52 = k + 1 := by omega
    have hfraction : 2 ^ 52 + (k * 2 ^ 52 + mantissa) % 2 ^ 52 = mantissa := by omega
    have hexponent : (((k + 1 : Nat) : Int) - 1075) = leastExponent + k := by
      rw [leastExponent]
      omega
    rw [patternValue, hfield, if_neg (Nat.succ_ne_zero _), hfraction, hexponent]

theorem IsNormalized.patternValue_eq (h : IsNormalized mantissa exponent) :
    patternValue (patternOf mantissa exponent) = mantissa * 2 ^ exponent :=
  patternValue_patternOf h.width.le h.least h.normal

theorem exists_patternOf (pattern : Nat) :
    ∃ mantissa exponent, patternOf mantissa exponent = pattern ∧
    IsNormalized mantissa exponent := by
  by_cases hsubnormal : pattern / 2 ^ 52 = 0
  · exact ⟨pattern, leastExponent, by simp [patternOf], by omega, Int.le_refl _, .inr rfl⟩
  · refine ⟨2 ^ 52 + pattern % 2 ^ 52, leastExponent + (pattern / 2 ^ 52 - 1 : Nat), ?_, by
      omega, by omega, .inl (Nat.le_add_right _ _)⟩
    rw [patternOf]
    omega

/-- Neighbours differ by the unit in which both are whole numbers of at most 53 bits, or one more by
a carry. -/
theorem patternValue_succ (pattern : Nat) : ∃ exponent : Int, ∃ mantissa : Nat,
    patternValue pattern = mantissa * 2 ^ exponent ∧
    patternValue (pattern + 1) = (mantissa + 1 : Nat) * 2 ^ exponent ∧
    mantissa < 2 ^ 53 := by
  obtain ⟨mantissa, exponent, rfl, hnormalized⟩ := exists_patternOf pattern
  have hnext : patternOf mantissa exponent + 1 = patternOf (mantissa + 1) exponent :=
    Nat.add_assoc _ _ _
  refine ⟨exponent, mantissa, hnormalized.patternValue_eq, ?_, hnormalized.width⟩
  rw [hnext, patternValue_patternOf hnormalized.width hnormalized.least
    (hnormalized.normal.imp_left (Nat.le_succ_of_le ·))]

theorem strictMono_patternValue : StrictMono patternValue := by
  refine strictMono_nat_of_lt_succ fun pattern => ?_
  obtain ⟨exponent, mantissa, hvalue, hnext, -⟩ := patternValue_succ pattern
  rw [hvalue, hnext]
  gcongr
  exact Nat.lt_succ_self mantissa

theorem patternValue_succ_le (pattern : Nat) :
    patternValue (pattern + 1) ≤ 2 ^ 53 * (patternValue (pattern + 1) - patternValue pattern) := by
  obtain ⟨exponent, mantissa, hvalue, hnext, hwidth⟩ := patternValue_succ pattern
  have hcarry : ((mantissa + 1 : Nat) : ℚ) ≤ 2 ^ 53 := by exact_mod_cast hwidth
  rw [hvalue, hnext]
  calc ((mantissa + 1 : Nat) : ℚ) * 2 ^ exponent ≤ 2 ^ 53 * 2 ^ exponent := by gcongr
    _ = 2 ^ 53 * ((mantissa + 1 : Nat) * 2 ^ exponent - mantissa * 2 ^ exponent) := by
      push_cast; ring

theorem patternValue_succ_le_double (h : 0 < pattern) :
    patternValue (pattern + 1) ≤ 2 * patternValue pattern := by
  obtain ⟨exponent, mantissa, hvalue, hnext, -⟩ := patternValue_succ pattern
  have hpos : 0 < patternValue pattern := by
    rw [← patternValue_zero]
    exact strictMono_patternValue h
  have hmantissa : 1 ≤ mantissa := by
    by_contra hzero
    rw [hvalue, Nat.lt_one_iff.1 (Nat.not_le.1 hzero)] at hpos
    simp at hpos
  have hone : (1 : ℚ) ≤ mantissa := by exact_mod_cast hmantissa
  rw [hvalue, hnext]
  push_cast
  rw [← mul_assoc]
  gcongr
  linarith

theorem abs_roundDiv_sub_le (num : Nat) (hden : den ≠ 0) :
    |(roundDiv num den : ℚ) - num / den| ≤ 1 / 2 := by
  have hd : (0 : ℚ) < den := by exact_mod_cast Nat.pos_of_ne_zero hden
  have hdivision : ((den * (num / den) + num % den : Nat) : ℚ) = num := by rw [Nat.div_add_mod]
  have hsplit : (num : ℚ) / den = (num / den : Nat) + (num % den : Nat) / den := by
    rw [← hdivision]
    push_cast
    field_simp
  rw [hsplit, roundDiv]
  split
  · next hup =>
    have hhalf : (1 / 2 : ℚ) ≤ (num % den : Nat) / den := by
      rw [div_le_div_iff₀ two_pos hd, one_mul]
      exact_mod_cast (by omega : den ≤ num % den * 2)
    have hproper : ((num % den : Nat) : ℚ) / den ≤ 1 := by
      rw [div_le_one hd]
      exact_mod_cast (Nat.mod_lt num (Nat.pos_of_ne_zero hden)).le
    rw [abs_le]
    push_cast
    constructor <;> linarith
  · next hdown =>
    have hhalf : ((num % den : Nat) : ℚ) / den ≤ 1 / 2 := by
      rw [div_le_div_iff₀ hd two_pos, one_mul]
      exact_mod_cast (by omega : num % den * 2 ≤ den)
    have hnonneg : (0 : ℚ) ≤ (num % den : Nat) / den := by positivity
    rw [abs_le]
    constructor <;> linarith

theorem abs_roundDiv_sub_le_abs (num : Nat) (hden : den ≠ 0) (k : Nat) :
    |(roundDiv num den : ℚ) - num / den| ≤ |(k : ℚ) - num / den| := by
  by_cases hsame : k = roundDiv num den
  · rw [hsame]
  have happart : (1 : ℚ) ≤ |(k : ℚ) - roundDiv num den| := by
    have hne : (k : ℤ) - roundDiv num den ≠ 0 := by omega
    exact_mod_cast Int.one_le_abs hne
  have hnear := abs_roundDiv_sub_le num hden
  have htriangle := abs_sub_le (k : ℚ) (num / den) (roundDiv num den)
  rw [abs_sub_comm (num / den : ℚ)] at htriangle
  linarith

theorem ratio_pos (hnum : num ≠ 0) (hden : den ≠ 0) : (0 : ℚ) < num / den :=
  div_pos (Nat.cast_pos.2 (Nat.pos_of_ne_zero hnum)) (Nat.cast_pos.2 (Nat.pos_of_ne_zero hden))

theorem exponentOfRatio_bounds (hnum : num ≠ 0) (hden : den ≠ 0) :
    leastExponent ≤ exponentOfRatio num den ∧
    (num / den : ℚ) < 2 ^ 53 * 2 ^ exponentOfRatio num den ∧
    (exponentOfRatio num den = leastExponent ∨
      (2 ^ 52 : ℚ) * 2 ^ exponentOfRatio num den ≤ num / den) := by
  have hpos := ratio_pos hnum hden
  have hexponent := exponentOfRatio_eq_log hnum hden
  refine ⟨by omega, ?_, ?_⟩
  · have hlt := (Int.lt_zpow_iff_log_lt (b := 2) (x := 53 + exponentOfRatio num den)
      (by decide) hpos).2 (by omega)
    rwa [Nat.cast_ofNat, zpow_add₀ two_ne_zero] at hlt
  · by_cases hleast : exponentOfRatio num den = leastExponent
    · exact .inl hleast
    · have hle := (Int.zpow_le_iff_le_log (b := 2) (x := 52 + exponentOfRatio num den)
        (by decide) hpos).2 (by omega)
      rw [Nat.cast_ofNat, zpow_add₀ two_ne_zero] at hle
      exact .inr hle

theorem patternOfRatio_eq (hnum : num ≠ 0) (hden : den ≠ 0) : ∃ a b : Nat, b ≠ 0 ∧
    (num / den : ℚ) = a / b * 2 ^ exponentOfRatio num den ∧
      patternOfRatio num den = patternOf (roundDiv a b) (exponentOfRatio num den) := by
  rw [patternOfRatio, if_neg hnum]
  generalize exponentOfRatio num den = exponent
  rcases le_or_gt 0 exponent with h | h
  · lift exponent to ℕ using h with k
    refine ⟨num, den * 2 ^ k, Nat.mul_ne_zero hden (Nat.two_pow_pos k).ne', ?_, ?_⟩
    · push_cast
      rw [zpow_natCast]
      field_simp
    · simp only [patternOf]
      rw [if_pos (Int.natCast_nonneg k), Int.toNat_natCast]
  · obtain ⟨k, rfl⟩ := Int.exists_eq_neg_ofNat h.le
    refine ⟨num * 2 ^ k, den, hden, ?_, ?_⟩
    · push_cast
      rw [zpow_neg, zpow_natCast]
      field_simp
    · simp only [patternOf]
      rw [if_neg (by omega), neg_neg, Int.toNat_natCast]

theorem roundDiv_bounds {a b : Nat} (hnum : num ≠ 0) (hden : den ≠ 0) (hb : b ≠ 0)
    (h : (num / den : ℚ) = a / b * 2 ^ exponentOfRatio num den) :
    roundDiv a b ≤ 2 ^ 53 ∧ (2 ^ 52 ≤ roundDiv a b ∨ exponentOfRatio num den = leastExponent) := by
  obtain ⟨-, hhigh, hlow⟩ := exponentOfRatio_bounds hnum hden
  have hunit : (0 : ℚ) < 2 ^ exponentOfRatio num den := zpow_pos two_pos _
  have hnear := abs_le.1 (abs_roundDiv_sub_le a hb)
  rw [h, mul_lt_mul_iff_left₀ hunit] at hhigh
  rw [h, mul_le_mul_iff_left₀ hunit] at hlow
  constructor
  · by_contra hwide
    have hwide' : (2 ^ 53 + 1 : ℚ) ≤ roundDiv a b := by exact_mod_cast Nat.not_le.1 hwide
    linarith
  · rcases hlow with hsubnormal | hnormal
    · exact .inr hsubnormal
    · refine .inl ?_
      by_contra hnarrow
      have hnarrow' : (roundDiv a b + 1 : ℚ) ≤ 2 ^ 52 := by exact_mod_cast Nat.not_le.1 hnarrow
      linarith

theorem patternValue_patternOfRatio (hnum : num ≠ 0) (hden : den ≠ 0) : ∃ a b : Nat, b ≠ 0 ∧
    (num / den : ℚ) = a / b * 2 ^ exponentOfRatio num den ∧
      patternValue (patternOfRatio num den) = roundDiv a b * 2 ^ exponentOfRatio num den := by
  obtain ⟨a, b, hb, hvalue, hpattern⟩ := patternOfRatio_eq hnum hden
  obtain ⟨hwidth, hnormal⟩ := roundDiv_bounds hnum hden hb hvalue
  refine ⟨a, b, hb, hvalue, ?_⟩
  rw [hpattern, patternValue_patternOf hwidth (exponentOfRatio_bounds hnum hden).1 hnormal]

/-- No pattern stands for a number closer to a fraction than the one found for it. -/
theorem abs_patternValue_sub_le (num : Nat) (hden : den ≠ 0) (pattern : Nat) :
    |patternValue (patternOfRatio num den) - num / den| ≤ |patternValue pattern - num / den| := by
  by_cases hnum : num = 0
  · rw [hnum, patternOfRatio, if_pos rfl, patternValue_zero]
    simp
  obtain ⟨a, b, hb, hvalue, hfound⟩ := patternValue_patternOfRatio hnum hden
  obtain ⟨-, -, hlow⟩ := exponentOfRatio_bounds hnum hden
  obtain ⟨mantissa, exponent, rfl, hnormalized⟩ := exists_patternOf pattern
  have hunit : (0 : ℚ) < 2 ^ exponentOfRatio num den := zpow_pos two_pos _
  rw [hfound, hnormalized.patternValue_eq, hvalue, ← sub_mul, abs_mul, abs_of_pos hunit]
  rcases le_or_gt (exponentOfRatio num den) exponent with hcoarse | hfine
  · -- A number with a larger exponent is a multiple of the unit, too.
    obtain ⟨k, rfl⟩ : ∃ k : Nat, exponent = exponentOfRatio num den + k :=
      ⟨(exponent - exponentOfRatio num den).toNat, by omega⟩
    have hmultiple : (mantissa : ℚ) * 2 ^ (exponentOfRatio num den + (k : Int)) =
        (mantissa * 2 ^ k : Nat) * 2 ^ exponentOfRatio num den := by
      rw [zpow_add₀ two_ne_zero, zpow_natCast]
      push_cast
      ring
    rw [hmultiple, ← sub_mul, abs_mul, abs_of_pos hunit]
    exact mul_le_mul_of_nonneg_right (abs_roundDiv_sub_le_abs a hb _) hunit.le
  · -- A number with a smaller exponent is below the least mantissa of 53 bits, which is a multiple
    -- of the unit.
    have hnormal' := hlow.resolve_left (hnormalized.least.trans_lt hfine).ne'
    have hbelow : (mantissa : ℚ) * 2 ^ exponent ≤ 2 ^ 52 * 2 ^ exponentOfRatio num den := by
      have hwidth : (mantissa : ℚ) ≤ 2 ^ 53 := by exact_mod_cast hnormalized.width.le
      calc (mantissa : ℚ) * 2 ^ exponent ≤ 2 ^ 53 * 2 ^ (exponentOfRatio num den - 1) := by
            gcongr
            · norm_num
            · omega
        _ = 2 ^ 52 * 2 ^ exponentOfRatio num den := by
            rw [zpow_sub_one₀ two_ne_zero]
            ring
    rw [hvalue, mul_le_mul_iff_left₀ hunit] at hnormal'
    have hnearest := abs_roundDiv_sub_le_abs a hb (2 ^ 52)
    rw [Nat.cast_pow, Nat.cast_ofNat, abs_of_nonpos (sub_nonpos.2 hnormal')] at hnearest
    calc |(roundDiv a b : ℚ) - a / b| * 2 ^ exponentOfRatio num den
        ≤ -(2 ^ 52 - a / b) * 2 ^ exponentOfRatio num den := by gcongr
      _ ≤ -(mantissa * 2 ^ exponent - a / b * 2 ^ exponentOfRatio num den) := by linarith
      _ ≤ |(mantissa : ℚ) * 2 ^ exponent - a / b * 2 ^ exponentOfRatio num den| := neg_le_abs _

theorem patternOfRatio_le_of_le (hden : den ≠ 0) (h : (num / den : ℚ) ≤ patternValue pattern) :
    patternOfRatio num den ≤ pattern := by
  by_contra hgreater
  have hlt := strictMono_patternValue (Nat.not_le.1 hgreater)
  have hnearest := abs_patternValue_sub_le num hden pattern
  rw [abs_of_nonneg (by linarith), abs_of_nonneg (by linarith)] at hnearest
  linarith

theorem le_patternOfRatio_of_le (hden : den ≠ 0) (h : patternValue pattern ≤ (num / den : ℚ)) :
    pattern ≤ patternOfRatio num den := by
  by_contra hless
  have hlt := strictMono_patternValue (Nat.not_le.1 hless)
  have hnearest := abs_patternValue_sub_le num hden pattern
  rw [abs_of_nonpos (by linarith), abs_of_nonpos (by linarith)] at hnearest
  linarith

theorem patternOfRatio_of_patternValue (hden : den ≠ 0)
    (h : (num / den : ℚ) = patternValue pattern) :
    patternOfRatio num den = pattern :=
  Nat.le_antisymm (patternOfRatio_le_of_le hden h.le) (le_patternOfRatio_of_le hden h.ge)

theorem patternOfRatio_eq_of_close (hden : den ≠ 0)
    (hbelow : ∀ smaller, smaller + 1 = pattern →
      2 * |patternValue pattern - num / den| < patternValue pattern - patternValue smaller)
    (habove : 2 * |patternValue pattern - num / den| < patternValue (pattern + 1) -
      patternValue pattern) :
    patternOfRatio num den = pattern := by
  have hnearest := abs_patternValue_sub_le num hden pattern
  have htriangle := abs_sub_le (patternValue (patternOfRatio num den))
    (num / den) (patternValue pattern)
  rw [abs_sub_comm (num / den : ℚ)] at htriangle
  -- A neighbour, or what is beyond it, would be found only at the price of a greater error.
  rcases lt_trichotomy (patternOfRatio num den) pattern with hless | hsame | hgreater
  · obtain ⟨smaller, rfl⟩ := Nat.exists_eq_add_of_lt hless
    have hmono := strictMono_patternValue.monotone
      (Nat.le_add_right (patternOfRatio num den) smaller)
    have hgap := hbelow _ rfl
    have hapart := neg_abs_le
      (patternValue (patternOfRatio num den) - patternValue (patternOfRatio num den + smaller + 1))
    linarith
  · exact hsame
  · have hmono := strictMono_patternValue.monotone (Nat.succ_le_of_lt hgreater)
    have hapart := le_abs_self (patternValue (patternOfRatio num den) - patternValue pattern)
    linarith

theorem abs_patternValue_sub_le_half_unit (hnum : num ≠ 0) (hden : den ≠ 0) :
    |patternValue (patternOfRatio num den) - num / den| ≤ 1 / 2 * 2 ^ exponentOfRatio num den := by
  obtain ⟨a, b, hb, hvalue, hfound⟩ := patternValue_patternOfRatio hnum hden
  have hunit : (0 : ℚ) < 2 ^ exponentOfRatio num den := zpow_pos two_pos _
  rw [hfound, hvalue, ← sub_mul, abs_mul, abs_of_pos hunit]
  gcongr
  exact abs_roundDiv_sub_le a hb

theorem patternValue_patternOfRatio_of_exact (exponent : Int) (hden : den ≠ 0)
    (hwidth : mantissa < 2 ^ 53)
    (hleast : leastExponent ≤ exponent) (h : (num / den : ℚ) = mantissa * 2 ^ exponent) :
    patternValue (patternOfRatio num den) = num / den := by
  by_cases hnum : num = 0
  · rw [hnum, patternOfRatio, if_pos rfl, patternValue_zero]
    simp
  have hmantissa : mantissa ≠ 0 := by
    rintro rfl
    rw [Nat.cast_zero, zero_mul, div_eq_zero_iff] at h
    exact h.elim (by exact_mod_cast hnum) (by exact_mod_cast hden)
  have hlog := log_natCast_mul_zpow (b := 2) (by decide) hmantissa exponent
  have hnarrow := (Nat.log2_lt hmantissa).2 hwidth
  rw [Nat.cast_ofNat, ← Nat.log2_eq_log_two, ← h] at hlog
  have hexponent := exponentOfRatio_eq_log hnum hden
  -- The value is a whole number in the unit that is chosen for it.
  obtain ⟨k, rfl⟩ : ∃ k : Nat, exponent = exponentOfRatio num den + k :=
    ⟨(exponent - exponentOfRatio num den).toNat, by omega⟩
  obtain ⟨a, b, hb, hvalue, hfound⟩ := patternValue_patternOfRatio hnum hden
  have hunit : (0 : ℚ) < 2 ^ exponentOfRatio num den := zpow_pos two_pos _
  have hwhole : (a / b : ℚ) = (mantissa * 2 ^ k : Nat) := by
    rw [hvalue, zpow_add₀ two_ne_zero, mul_left_comm, mul_comm, mul_right_inj' hunit.ne',
      zpow_natCast] at h
    exact_mod_cast h
  have hnearest := abs_roundDiv_sub_le_abs a hb (mantissa * 2 ^ k)
  rw [hwhole, sub_self, abs_zero, abs_nonpos_iff, sub_eq_zero] at hnearest
  rw [hfound, hnearest, hvalue, hwhole]

theorem abs_patternValue_sub_le_of_one_le (hden : den ≠ 0) (h : (1 : ℚ) ≤ num / den) :
    |patternValue (patternOfRatio num den) - num / den| ≤ num / den / 2 ^ 53 := by
  have hnum : num ≠ 0 := by
    rintro rfl
    norm_num at h
  have hhalf := abs_patternValue_sub_le_half_unit hnum hden
  obtain ⟨-, -, hleast | hnormal⟩ := exponentOfRatio_bounds hnum hden
  · have htiny : (2 : ℚ) ^ leastExponent ≤ 2 ^ (-52 : ℤ) :=
      zpow_le_zpow_right₀ one_le_two (by decide)
    rw [hleast] at hhalf
    calc |patternValue (patternOfRatio num den) - num / den| ≤ 1 / 2 * 2 ^ leastExponent := hhalf
      _ ≤ 1 / 2 * 2 ^ (-52 : ℤ) := by gcongr
      _ = 1 / 2 ^ 53 := by rw [zpow_neg, zpow_ofNat]; norm_num
      _ ≤ num / den / 2 ^ 53 := by gcongr
  · calc |patternValue (patternOfRatio num den) - num / den|
        ≤ 1 / 2 * 2 ^ exponentOfRatio num den := hhalf
      _ = 2 ^ 52 * 2 ^ exponentOfRatio num den / 2 ^ 53 := by ring
      _ ≤ num / den / 2 ^ 53 := by gcongr

/-- A fraction that is close to the number of a pattern is rounded to it or to a neighbour. -/
theorem patternOfRatio_close (hden : den ≠ 0)
    (h : |(num / den : ℚ) - patternValue pattern| ≤ patternValue pattern / 2 ^ 53) :
    patternOfRatio num den ≤ pattern + 1 ∧ pattern ≤ patternOfRatio num den + 1 := by
  obtain ⟨hlow, hhigh⟩ := abs_le.1 h
  constructor
  · have hgap := patternValue_succ_le pattern
    have hmono := strictMono_patternValue (Nat.lt_succ_self pattern)
    exact patternOfRatio_le_of_le hden (by linarith)
  · cases pattern with
    | zero => exact Nat.zero_le _
    | succ smaller =>
      have hgap := patternValue_succ_le smaller
      exact Nat.succ_le_succ (le_patternOfRatio_of_le hden (by linarith))

theorem patternValue_infinityPattern : patternValue infinityPattern = 2 ^ 1024 := by
  have hpattern : patternOf (2 ^ 52) 972 = infinityPattern := by decide
  rw [← hpattern, patternValue_patternOf (by decide) (by decide) (.inl (Nat.le_refl _)), zpow_ofNat]
  rw [Nat.cast_pow, Nat.cast_ofNat, ← pow_add]

end Calculator.Binary64
