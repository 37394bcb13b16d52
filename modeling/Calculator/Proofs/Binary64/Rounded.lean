import Calculator.Proofs.Binary64.Order

/-!
# Products and quotients are rounded once

The operations keep a mantissa together with what two bits tell about the places that were dropped.
These bits are those of the exact fraction after every shift, so a product or quotient of finite
doubles is the double nearest to the exact one, with the sign that the signs of both numbers give.
-/

namespace Calculator.Binary64

open Float.Model (Format UnpackedFloat totalExponent)
open Float.Model.UnpackedFloat

variable {x y : Float} {negative negative' : Bool}
  {mantissa mantissa' num den num' den' pattern : Nat} {exponent exponent' : Int}

def extended (num den : Nat) : ExtendedMantissa :=
  .ofMantissaAndAccuracy (num / den) (accuracyOfFraction (num % den) den)

theorem extended_eq (num : Nat) (hden : den ≠ 0) : extended num den =
    ⟨num / den, den ≤ 2 * (num % den), num % den ≠ 0 ∧ 2 * (num % den) ≠ den⟩ := by
  rw [extended, accuracyOfFraction]
  split
  · next hexact =>
    rw [hexact]
    simp [ExtendedMantissa.ofMantissaAndAccuracy, hden]
  · next hrest =>
    rcases Nat.lt_trichotomy (2 * (num % den)) den with hlt | heq | hgt
    · rw [Nat.compare_eq_lt.2 hlt]
      simp [ExtendedMantissa.ofMantissaAndAccuracy, hrest, hlt, hlt.ne]
    · rw [Nat.compare_eq_eq.2 heq]
      simp [ExtendedMantissa.ofMantissaAndAccuracy, heq]
    · rw [Nat.compare_eq_gt.2 hgt]
      simp [ExtendedMantissa.ofMantissaAndAccuracy, hrest, hgt.le, hgt.ne']

theorem roundedMantissa_extended (num : Nat) (hden : den ≠ 0) :
    (extended num den).roundedMantissa = roundDiv num den := by
  rw [extended_eq num hden]
  simp only [roundDiv]
  rcases Nat.lt_trichotomy (2 * (num % den)) den with hlt | heq | hgt
  · rw [if_neg (by omega), decide_eq_false (Nat.not_le.2 hlt)]
    cases decide (num % den ≠ 0 ∧ 2 * (num % den) ≠ den) <;> rfl
  · rw [decide_eq_true heq.ge, decide_eq_false fun hsticky => hsticky.2 heq]
    change num / den + num / den % 2 = _
    split <;> omega
  · rw [if_pos (.inl hgt), decide_eq_true hgt.le, decide_eq_true ⟨by omega, hgt.ne'⟩]
    rfl

theorem shiftRightOne_extended (num : Nat) (hden : den ≠ 0) :
    (extended num den).shiftRightOne = extended num (den * 2) := by
  have hquotient : num / (den * 2) = num / den / 2 := (Nat.div_div_eq_div_mul num den 2).symm
  have hrest : num % (den * 2) = num % den + den * (num / den % 2) := Nat.mod_mul
  have hlt := Nat.mod_lt num (Nat.pos_of_ne_zero hden)
  rw [extended_eq num hden, extended_eq num (Nat.mul_ne_zero hden two_ne_zero), hquotient, hrest]
  simp only [ExtendedMantissa.shiftRightOne]
  rcases Nat.mod_two_eq_zero_or_one (num / den) with heven | hodd
  · rw [heven, Nat.mul_zero, Nat.add_zero]
    congr 1
    · rw [eq_comm, decide_eq_false (by omega)]
      rfl
    · rw [← Bool.decide_or, decide_eq_decide]
      omega
  · rw [hodd, Nat.mul_one]
    congr 1
    · rw [eq_comm, decide_eq_true (by omega)]
      rfl
    · rw [← Bool.decide_or, decide_eq_decide]
      omega

theorem shiftRight_extended (num : Nat) (hden : den ≠ 0) (k : Nat) :
    extended num den >>> k = extended num (den * 2 ^ k) := by
  induction k with
  | zero => rw [Nat.pow_zero, Nat.mul_one]; rfl
  | succ k ih =>
    have hstep : extended num den >>> (k + 1) = (extended num den >>> k).shiftRightOne := rfl
    have hden₂ : den * 2 ^ k ≠ 0 := Nat.mul_ne_zero hden (Nat.two_pow_pos k).ne'
    rw [hstep, ih, shiftRightOne_extended num hden₂, Nat.mul_assoc, ← Nat.pow_succ]

theorem log_mul_zpow {q : ℚ} (hq : 0 < q) (exponent : Int) :
    Int.log 2 (q * 2 ^ exponent) = Int.log 2 q + exponent := by
  have hpow : (0 : ℚ) < 2 ^ exponent := zpow_pos two_pos exponent
  have hlow := Int.zpow_log_le_self (b := 2) (by decide) hq
  have hhigh := Int.lt_zpow_succ_log_self (b := 2) (by decide) q
  have hlow' := (Int.zpow_le_iff_le_log (b := 2) (x := Int.log 2 q + exponent)
    (by decide) (mul_pos hq hpow)).1 (by
    rw [Nat.cast_ofNat, zpow_add₀ two_ne_zero]
    exact mul_le_mul_of_nonneg_right hlow hpow.le)
  have hhigh' := (Int.lt_zpow_iff_log_lt (b := 2) (x := Int.log 2 q + 1 + exponent)
    (by decide) (mul_pos hq hpow)).1 (by
    rw [Nat.cast_ofNat, zpow_add₀ two_ne_zero]
    exact mul_lt_mul_of_pos_right hhigh hpow)
  omega

theorem log_div_eq (hnum : num ≠ 0) (hden : den ≠ 0) :
    num / den ≠ 0 ∧ Int.log 2 (num / den : ℚ) = (num / den).log2 ∨ num / den = 0 ∧
    Int.log 2 (num / den : ℚ) < 0 := by
  have hd : (0 : ℚ) < den := by exact_mod_cast Nat.pos_of_ne_zero hden
  have hpos := ratio_pos hnum hden
  by_cases hzero : num / den = 0
  · refine .inr ⟨hzero, (Int.lt_zpow_iff_log_lt (b := 2) (by decide) hpos).1 ?_⟩
    rw [zpow_zero, div_lt_one hd]
    exact_mod_cast (Nat.div_eq_zero_iff.1 hzero).resolve_left hden
  · refine .inl ⟨hzero, ?_⟩
    have hone : (1 : ℚ) ≤ num / den := by
      rw [one_le_div hd]
      exact_mod_cast (Nat.one_le_div_iff (Nat.pos_of_ne_zero hden)).1 (Nat.pos_of_ne_zero hzero)
    rw [Int.log_of_one_le_right 2 hone, Nat.floor_div_eq_div, Nat.log2_eq_log_two]

theorem max_targetExponent (hnum : num ≠ 0) (hden : den ≠ 0) (hnum' : num' ≠ 0) (hden' : den' ≠ 0)
    (hvalue : (num' / den' : ℚ) = num / den * 2 ^ exponent)
    (hle : exponent ≤ exponentOfRatio num' den') :
    max exponent (Format.binary64.targetExponent (totalExponent (num / den) exponent)) =
      exponentOfRatio num' den' := by
  have hpos := ratio_pos hnum hden
  have hexponent := exponentOfRatio_eq_log hnum' hden'
  rw [hvalue, log_mul_zpow hpos, leastExponent] at hexponent
  rw [targetExponent_eq, totalExponent]
  rcases log_div_eq hnum hden with ⟨-, hlog⟩ | ⟨hzero, hlog⟩
  · omega
  · rw [hzero, Nat.log2_zero]
    omega

theorem roundDiv_congr {a b c d : Nat} (hb : b ≠ 0) (hd : d ≠ 0) (h : (a / b : ℚ) = c / d) :
    roundDiv a b = roundDiv c d := by
  have hcross : a * d = c * b := by
    rw [div_eq_div_iff (by exact_mod_cast hb) (by exact_mod_cast hd)] at h
    exact_mod_cast h
  rw [← roundDiv_mul_right (Nat.pos_of_ne_zero hd), hcross, Nat.mul_comm b,
    roundDiv_mul_right (Nat.pos_of_ne_zero hb)]

theorem roundWithAccuracy_of_shifts {m : Nat} {e e₁ e₂ : Int} {accuracy : Accuracy}
    {em₁ em₂ : ExtendedMantissa}
    (hfirst : shiftToTargetExponent Format.binary64 m e accuracy = (em₁, e₁))
    (hlast : shiftToTargetExponent Format.binary64 em₁.roundedMantissa e₁ .exact = (em₂, e₂)) :
    roundWithAccuracy Format.binary64 (signOf negative) m e accuracy =
      unpacked negative em₂.mantissa e₂ := by
  simp only [roundWithAccuracy, hfirst, hlast, unpacked]

theorem exists_shiftToTargetExponent {r : Nat} (hwidth : r ≤ 2 ^ 53)
    (hleast : leastExponent ≤ exponent) (hnormal : 2 ^ 52 ≤ r ∨ exponent = leastExponent) :
    ∃ em e, shiftToTargetExponent Format.binary64 r exponent .exact = (em, e) ∧
      patternOf em.mantissa e = patternOf r exponent ∧ IsNormalized em.mantissa e := by
  have hshift : ∀ k : Nat, (Format.binary64.targetExponent (totalExponent r exponent) -
    exponent).toNat = k →
      shiftToTargetExponent Format.binary64 r exponent .exact =
        (ExtendedMantissa.ofMantissaAndAccuracy r .exact >>> k, exponent + k) := by
    intro k hk
    rw [shiftToTargetExponent, shiftToExponent, hk]
  have hmantissa :
      ∀ k : Nat, (ExtendedMantissa.ofMantissaAndAccuracy r .exact >>> k).mantissa = r / 2 ^ k :=
    mantissa_shiftRight _
  rw [targetExponent_eq, totalExponent] at hshift
  rw [leastExponent] at hleast hnormal
  -- The mantissa has 53 bits already, unless rounding has carried it over.
  rcases Nat.eq_or_lt_of_le hwidth with rfl | hnarrow
  · have hlog : (2 ^ 53 : Nat).log2 = 53 := Nat.log2_two_pow
    refine ⟨_, _, hshift 1 (by omega), ?_⟩
    rw [hmantissa]
    refine ⟨?_, ?_, ?_, ?_⟩
    · simp only [patternOf, leastExponent]
      omega
    · decide
    · rw [leastExponent]
      omega
    · exact .inl (by decide)
  · have hlog : r.log2 ≤ 52 := by
      by_cases hzero : r = 0
      · rw [hzero, Nat.log2_zero]
        exact Nat.zero_le _
      · exact Nat.lt_succ_iff.1 ((Nat.log2_lt hzero).2 hnarrow)
    refine ⟨_, _, hshift 0 (by omega), ?_⟩
    rw [hmantissa, Nat.pow_zero, Nat.div_one, Int.natCast_zero, Int.add_zero]
    exact ⟨rfl, hnarrow, hleast, hnormal⟩

/-- A number as the operations leave it, with the parts of the double nearest to a fraction. -/
def IsRounded (u : UnpackedFloat) (negative : Bool) (num den : Nat) : Prop :=
  ∃ mantissa exponent, u = unpacked negative mantissa exponent ∧
    patternOf mantissa exponent = patternOfRatio num den ∧
    IsNormalized mantissa exponent

theorem isRounded_zero (negative : Bool) (den : Nat) :
    IsRounded (.zero (signOf negative)) negative 0 den :=
  ⟨0, leastExponent, rfl, rfl, by decide, Int.le_refl _, .inr rfl⟩

theorem isRounded_roundWithAccuracy (negative : Bool) (hnum : num ≠ 0)
    (hden : den ≠ 0) (hnum' : num' ≠ 0)
    (hden' : den' ≠ 0) (hvalue : (num' / den' : ℚ) = num / den * 2 ^ exponent)
    (hle : exponent ≤ exponentOfRatio num' den') :
    IsRounded (roundWithAccuracy Format.binary64 (signOf negative) (num / den) exponent
      (accuracyOfFraction (num % den) den)) negative num' den' := by
  have htarget := max_targetExponent hnum hden hnum' hden' hvalue hle
  obtain ⟨hleast, -, -⟩ := exponentOfRatio_bounds hnum' hden'
  obtain ⟨a, b, hb, hratio, hpattern⟩ := patternOfRatio_eq hnum' hden'
  obtain ⟨hwidth, hnormal⟩ := roundDiv_bounds hnum' hden' hb hratio
  obtain ⟨k, hk⟩ : ∃ k : Nat, exponentOfRatio num' den' = exponent + k :=
    ⟨(exponentOfRatio num' den' - exponent).toNat, by omega⟩
  rw [hk] at hratio htarget hpattern hleast hnormal
  have hden₂ : den * 2 ^ k ≠ 0 := Nat.mul_ne_zero hden (Nat.two_pow_pos k).ne'
  -- Both roundings are of the same value, in the unit that is left.
  have hround : roundDiv a b = (extended num (den * 2 ^ k)).roundedMantissa := by
    rw [roundedMantissa_extended num hden₂]
    apply roundDiv_congr hb hden₂
    have hunit : (2 : ℚ) ^ exponent ≠ 0 := (zpow_pos two_pos exponent).ne'
    rw [hvalue, zpow_add₀ two_ne_zero, mul_left_comm, mul_comm, mul_right_inj' hunit,
      zpow_natCast] at hratio
    push_cast
    rw [← div_div, hratio, mul_div_assoc, div_self (pow_ne_zero k two_ne_zero), mul_one]
  have hfirst : shiftToTargetExponent Format.binary64 (num / den) exponent
    (accuracyOfFraction (num % den) den) =
      (extended num (den * 2 ^ k), exponent + k) := by
    have hshift : (Format.binary64.targetExponent (totalExponent (num / den) exponent) -
      exponent).toNat = k := by omega
    rw [shiftToTargetExponent, shiftToExponent, hshift]
    exact congrArg (·, _) (shiftRight_extended num hden k)
  rw [hround] at hwidth hnormal hpattern
  obtain ⟨em, e, hlast, hcarried, hnormalized⟩ := exists_shiftToTargetExponent hwidth hleast hnormal
  exact ⟨em.mantissa, e, roundWithAccuracy_of_shifts hfirst hlast,
    hcarried.trans hpattern.symm, hnormalized⟩

theorem pack_infinity (negative : Bool) : packedInfinity Format.binary64 (signOf negative) =
    (floatOfPattern negative infinityPattern).toBits.toBitVec := by
  cases negative <;> decide +kernel

theorem pack_unpacked (h : IsNormalized mantissa exponent) :
    pack Format.binary64 (unpacked negative mantissa exponent) =
      (floatOfPattern negative (min (patternOf mantissa exponent)
        infinityPattern)).toBits.toBitVec := by
  obtain ⟨hwidth, hleast, hnormal⟩ := h
  rcases Nat.lt_or_ge (patternOf mantissa exponent) infinityPattern with hfinite | hinfinite
  · rw [Nat.min_eq_left hfinite.le]
    obtain ⟨m, e, hparts, hpattern, hwidth', hleast', -, hnormal'⟩ :=
      ofPattern_eq_finite negative hfinite
    obtain ⟨rfl, rfl⟩ : m = mantissa ∧ e = exponent := by
      simp only [patternOf, leastExponent] at hpattern hleast hleast' hnormal hnormal'
      omega
    rw [← unpack_of_ofFloat ((ofFloat_floatOfPattern hfinite).trans hparts)]
    exact pack_unpack (isFinite_unpack.1 (isFinite_floatOfPattern hfinite))
  · rw [Nat.min_eq_right hinfinite, ← pack_infinity]
    simp only [patternOf, leastExponent, infinityPattern] at hinfinite hleast hnormal
    have hmantissa : mantissa ≠ 0 := by omega
    have hbias : Format.binary64.exponentBias = 1023 := by decide
    rw [unpacked, dif_neg hmantissa]
    simp only [pack, hbias]
    rw [if_pos (by omega)]

theorem eq_floatOfRatio {u : UnpackedFloat} (h : IsRounded u negative num den)
    (hbits : x.toBits.toBitVec = pack Format.binary64 u) : x = floatOfRatio negative num den := by
  obtain ⟨mantissa, exponent, rfl, hpattern, hnormalized⟩ := h
  rw [pack_unpacked hnormalized, hpattern] at hbits
  exact toBits_inj (UInt64.toBitVec_inj.1 hbits)

def magnitude (x : Float) : ℚ :=
  patternValue (x.toBits.toNat % 2 ^ 63)

theorem magnitude_of_ofFloat (h : ofFloat x = .finite negative mantissa exponent)
    (hparts : AreParts mantissa exponent) : magnitude x = mantissa * 2 ^ exponent := by
  rw [magnitude, ← patternOf_ofPattern h, hparts.patternValue_eq]

theorem isNegative_floatOfPattern (negative : Bool) (h : pattern < infinityPattern) :
    isNegative (floatOfPattern negative pattern) = negative := by
  obtain ⟨m, e, hparts, -⟩ := ofPattern_eq_finite negative h
  exact isNegative_of_ofFloat ((ofFloat_floatOfPattern h).trans hparts)

theorem signedPattern_floatOfPattern (negative : Bool) (h : pattern < infinityPattern) :
    signedPattern (floatOfPattern negative pattern) = if negative then
      -(pattern : Int) else pattern := by
  obtain ⟨m, e, hparts, hpattern, -⟩ := ofPattern_eq_finite negative h
  rw [signedPattern_of_ofFloat ((ofFloat_floatOfPattern h).trans hparts), hpattern]

theorem magnitude_floatOfPattern (negative : Bool) (h : pattern < infinityPattern) :
    magnitude (floatOfPattern negative pattern) = patternValue pattern := by
  obtain ⟨m, e, hparts, hpattern, -⟩ := ofPattern_eq_finite negative h
  rw [magnitude, ← patternOf_ofPattern ((ofFloat_floatOfPattern h).trans hparts), hpattern]

theorem abs_floatOfPattern (negative : Bool) (h : pattern < infinityPattern) :
    (floatOfPattern negative pattern).abs = floatOfPattern false pattern := by
  obtain ⟨m, e, hparts, hpattern, hwidth, hleast, -, hnormal⟩ := ofPattern_eq_finite negative h
  have habs : (unpacked negative m e).abs = unpacked false m e := by
    rw [unpacked, unpacked]
    split <;> rfl
  have hbits : (floatOfPattern negative pattern).abs.toBits.toBitVec = pack Format.binary64
      (unpack Format.binary64 (floatOfPattern negative pattern).toBits.toBitVec).abs := rfl
  rw [unpack_of_ofFloat ((ofFloat_floatOfPattern h).trans hparts), habs,
    pack_unpacked ⟨hwidth, hleast, hnormal⟩, hpattern, Nat.min_eq_left h.le] at hbits
  exact toBits_inj (UInt64.toBitVec_inj.1 hbits)

theorem num_eq_zero_iff {q : ℚ} (hden : den ≠ 0) (h : (num / den : ℚ) = q) : num = 0 ↔ q = 0 := by
  have hd : (den : ℚ) ≠ 0 := by exact_mod_cast hden
  rw [← h, div_eq_zero_iff, or_iff_left hd, Nat.cast_eq_zero]

theorem signOf_mul (negative negative' : Bool) :
    signOf negative * signOf negative' = signOf (negative != negative') := by
  cases negative <;> cases negative' <;> rfl

theorem isRounded_mul (hparts : AreParts mantissa exponent) (hparts' : AreParts mantissa' exponent')
    (hden : den ≠ 0)
    (hvalue : (num / den : ℚ) = (mantissa * mantissa' : Nat) * 2 ^ (exponent + exponent')) :
    IsRounded (mul Format.binary64 (unpacked negative mantissa exponent)
      (unpacked negative' mantissa' exponent')) (negative != negative') num den := by
  have hzero : num = 0 ↔ mantissa * mantissa' = 0 := by
    have hunit : (2 : ℚ) ^ (exponent + exponent') ≠ 0 := (zpow_pos two_pos _).ne'
    rw [num_eq_zero_iff hden hvalue, mul_eq_zero_iff_right hunit, Nat.cast_eq_zero]
  by_cases hm : mantissa = 0
  · rw [hzero.2 (by rw [hm, Nat.zero_mul]), unpacked, dif_pos hm, unpacked]
    split
    · rw [mul, signOf_mul]
      exact isRounded_zero _ _
    · rw [mul, signOf_mul]
      exact isRounded_zero _ _
  by_cases hm' : mantissa' = 0
  · rw [hzero.2 (by rw [hm', Nat.mul_zero]), unpacked, dif_neg hm, unpacked,
      dif_pos hm', mul, signOf_mul]
    exact isRounded_zero _ _
  have hproduct : mantissa * mantissa' ≠ 0 := Nat.mul_ne_zero hm hm'
  rw [unpacked, dif_neg hm, unpacked, dif_neg hm', mul, signOf_mul]
  have hwhole :
      (num / den : ℚ) = (mantissa * mantissa' : Nat) / (1 : Nat) * 2 ^ (exponent + exponent') := by
    rw [Nat.cast_one, div_one, hvalue]
  have hexact := isRounded_roundWithAccuracy (negative != negative')
    hproduct Nat.one_ne_zero (hzero.not.2 hproduct)
    hden hwhole
  rw [Nat.div_one, Nat.mod_one] at hexact
  refine hexact ?_
  -- A product has at least the 53 bits of a normal factor, and that of subnormal numbers is below
  -- the least exponent.
  have hlog := log_natCast_mul_zpow (b := 2) (by decide) hproduct (exponent + exponent')
  rw [Nat.cast_ofNat, ← hvalue, ← Nat.log2_eq_log_two] at hlog
  rw [exponentOfRatio_eq_log (hzero.not.2 hproduct) hden, hlog]
  have hwide : 52 ≤ (mantissa * mantissa').log2 ∨ exponent + exponent' ≤ leastExponent := by
    rcases hparts.normal with hnormal | hleast
    · exact .inl ((Nat.le_log2 hproduct).2
        (hnormal.trans (Nat.le_mul_of_pos_right _ (Nat.pos_of_ne_zero hm'))))
    rcases hparts'.normal with hnormal' | hleast'
    · exact .inl ((Nat.le_log2 hproduct).2
        (hnormal'.trans (Nat.le_mul_of_pos_left _ (Nat.pos_of_ne_zero hm))))
    · right
      rw [hleast, hleast', leastExponent]
      decide
  omega

theorem mul_eq_floatOfRatio (hx : x.isFinite = true) (hy : y.isFinite = true) (hden : den ≠ 0)
    (h : (num / den : ℚ) = magnitude x * magnitude y) :
    x * y = floatOfRatio (isNegative x != isNegative y) num den := by
  obtain ⟨negative, mantissa, exponent, hpartsx, hparts⟩ := exists_areParts hx
  obtain ⟨negative', mantissa', exponent', hpartsy, hparts'⟩ := exists_areParts hy
  have hvalue : (num / den : ℚ) = (mantissa * mantissa' : Nat) * 2 ^ (exponent + exponent') := by
    rw [h, magnitude_of_ofFloat hpartsx hparts, magnitude_of_ofFloat hpartsy hparts',
      zpow_add₀ two_ne_zero]
    push_cast
    ring
  rw [isNegative_of_ofFloat hpartsx, isNegative_of_ofFloat hpartsy]
  apply eq_floatOfRatio (isRounded_mul hparts hparts' hden hvalue)
  rw [← unpack_of_ofFloat hpartsx, ← unpack_of_ofFloat hpartsy]
  rfl

theorem signOf_div (negative negative' : Bool) :
    signOf negative / signOf negative' = signOf (negative != negative') := by
  cases negative <;> cases negative' <;> rfl

theorem isRounded_div (hden : den ≠ 0) (hm' : mantissa' ≠ 0)
    (hvalue : (num / den : ℚ) = mantissa * 2 ^ exponent / (mantissa' * 2 ^ exponent')) :
    IsRounded (div Format.binary64 (unpacked negative mantissa exponent)
      (unpacked negative' mantissa' exponent')) (negative != negative') num den := by
  have hzero : num = 0 ↔ mantissa = 0 := by
    have hunit : (2 : ℚ) ^ exponent ≠ 0 := (zpow_pos two_pos _).ne'
    have hdivisor : (mantissa' * 2 ^ exponent' : ℚ) ≠ 0 :=
      mul_ne_zero (by exact_mod_cast hm') (zpow_pos two_pos _).ne'
    rw [num_eq_zero_iff hden hvalue, div_eq_zero_iff, or_iff_left hdivisor,
      mul_eq_zero_iff_right hunit, Nat.cast_eq_zero]
  rw [unpacked, unpacked, dif_neg hm']
  by_cases hm : mantissa = 0
  · rw [hzero.2 hm, dif_pos hm, div, signOf_div]
    exact isRounded_zero _ _
  rw [dif_neg hm, div, signOf_div]
  simp only [divCore]
  -- The numerator is shifted as far as the quotient needs places.
  obtain ⟨target, htarget⟩ : ∃ target, min (exponent - exponent') (Format.binary64.targetExponent
    (totalExponent mantissa exponent - totalExponent mantissa' exponent')) = target := ⟨_, rfl⟩
  obtain ⟨k, hk⟩ : ∃ k : Nat, exponent - exponent' = target + k :=
    ⟨(exponent - exponent' - target).toNat, by omega⟩
  have hshift : (exponent - exponent' - target).toNat = k := by omega
  rw [htarget, hshift, Nat.shiftLeft_eq]
  have hshifted : mantissa * 2 ^ k ≠ 0 := Nat.mul_ne_zero hm (Nat.two_pow_pos k).ne'
  have hratio : (num / den : ℚ) = (mantissa * 2 ^ k : Nat) / mantissa' * 2 ^ target := by
    have hmantissa' : (mantissa' : ℚ) ≠ 0 := by exact_mod_cast hm'
    have hexponent : exponent = exponent' + target + k := by omega
    rw [hvalue, hexponent, zpow_add₀ two_ne_zero, zpow_add₀ two_ne_zero, zpow_natCast]
    push_cast
    field_simp
  apply isRounded_roundWithAccuracy _ hshifted hm' (hzero.not.2 hm) hden hratio
  obtain ⟨hlow, -⟩ := log_div_bounds hshifted hm'
  have hpos := ratio_pos hshifted hm'
  rw [exponentOfRatio_eq_log (hzero.not.2 hm) hden, hratio, log_mul_zpow hpos, leastExponent]
  have hlog : mantissa.log2 + k ≤ (mantissa * 2 ^ k).log2 := by
    rw [Nat.le_log2 hshifted, Nat.pow_add]
    exact Nat.mul_le_mul_right _ (Nat.log2_self_le hm)
  rw [targetExponent_eq, totalExponent, totalExponent] at htarget
  omega

theorem div_eq_floatOfRatio (hx : x.isFinite = true) (hy : y.isFinite = true) (hden : den ≠ 0)
    (hdivisor : magnitude y ≠ 0) (h : (num / den : ℚ) = magnitude x / magnitude y) :
    x / y = floatOfRatio (isNegative x != isNegative y) num den := by
  obtain ⟨negative, mantissa, exponent, hpartsx, hparts⟩ := exists_areParts hx
  obtain ⟨negative', mantissa', exponent', hpartsy, hparts'⟩ := exists_areParts hy
  rw [magnitude_of_ofFloat hpartsy hparts'] at h hdivisor
  rw [magnitude_of_ofFloat hpartsx hparts] at h
  have hm' : mantissa' ≠ 0 := by
    rintro rfl
    exact hdivisor (by rw [Nat.cast_zero, zero_mul])
  rw [isNegative_of_ofFloat hpartsx, isNegative_of_ofFloat hpartsy]
  apply eq_floatOfRatio (isRounded_div hden hm' h)
  rw [← unpack_of_ofFloat hpartsx, ← unpack_of_ofFloat hpartsy]
  rfl

end Calculator.Binary64
