import Calculator.Elementary
import Calculator.Proofs.Binary64.Rounded

/-!
# Whole numbers rounded to decimals

A whole number has no decimals to lose, but it is multiplied by a power of ten and divided by it
again, and both results are rounded. The first error is less than a unit of the number once it is
divided, so the number stays or becomes one of its neighbours. It stays where nothing is lost, and
where the binary logarithms of its factors add up to that of the product.
-/

namespace Calculator

variable {x : Float} {n factor num den pattern decimals : Nat}

namespace Binary64

theorem magnitude_of_isWhole (h : isWhole x = true) :
    x.isFinite = true ∧ magnitude x = wholePart x := by
  rw [isWhole] at h
  split at h
  · next negative mantissa exponent hparts =>
    have hfinite := isFinite_of_ofFloat hparts
    obtain ⟨s, m, e, hparts', hareParts⟩ := exists_areParts hfinite
    cases hparts.symm.trans hparts'
    have hden : ((ratio mantissa exponent).2 : ℚ) ≠ 0 := by
      exact_mod_cast ratio_den_ne_zero mantissa exponent
    have hdvd : (ratio mantissa exponent).2 ∣ (ratio mantissa exponent).1 := by
      rw [ratio]
      split
      · exact Nat.one_dvd _
      · next hneg =>
        rw [Bool.or_eq_true, decide_eq_true_iff, or_iff_right hneg, beq_iff_eq] at h
        exact Nat.dvd_of_mod_eq_zero h
    refine ⟨hfinite, ?_⟩
    rw [magnitude_of_ofFloat hparts hareParts, ← ratio_value, wholePart, hparts]
    exact (Nat.cast_div hdvd hden).symm
  · cases h

theorem roundEven_eq_self {k : Nat} (hx : x.isFinite = true) (hk : magnitude x = k) :
    roundEven x = x := by
  obtain ⟨negative, pattern, hpattern, rfl⟩ := exists_floatOfPattern hx
  obtain ⟨mantissa, exponent, hparts, hback, hwidth, hleast, -, hnormal⟩ :=
    ofPattern_eq_finite negative hpattern
  rw [magnitude_floatOfPattern negative hpattern] at hk
  simp only [roundEven, mapFraction, (ofFloat_floatOfPattern hpattern).trans hparts]
  split
  · rfl
  · next hneg =>
    obtain ⟨j, rfl⟩ := Int.exists_eq_neg_ofNat (Int.not_le.1 hneg).le
    have hmantissa : mantissa = k * 2 ^ j := by
      have hunit : (2 : ℚ) ^ j ≠ 0 := pow_ne_zero j two_ne_zero
      rw [← hback, patternValue_patternOf hwidth.le hleast hnormal, zpow_neg,
        zpow_natCast, ← div_eq_mul_inv, div_eq_iff hunit] at hk
      exact_mod_cast hk
    have hnearest : patternOfRatio k 1 = pattern :=
      patternOfRatio_of_patternValue Nat.one_ne_zero (by rw [Nat.cast_one, div_one, hk])
    rw [neg_neg, Int.toNat_natCast, hmantissa, roundDiv_mul_self (Nat.two_pow_pos j),
      floatOfRatio, hnearest, Nat.min_eq_left hpattern.le]

theorem patternValue_patternOfRatio_natCast (h : n < 2 ^ 53) :
    patternValue (patternOfRatio n 1) = n := by
  have hexact : patternValue (patternOfRatio n 1) = (n / (1 : Nat) : ℚ) :=
    patternValue_patternOfRatio_of_exact 0 Nat.one_ne_zero h (by decide)
      (by rw [Nat.cast_one, div_one, zpow_zero, mul_one])
  rw [hexact, Nat.cast_one, div_one]

theorem exists_natCast_patternValue (n : Nat) :
    ∃ k : Nat, patternValue (patternOfRatio n 1) = k := by
  by_cases hwidth : n < 2 ^ 53
  · exact ⟨n, patternValue_patternOfRatio_natCast hwidth⟩
  · have hn : n ≠ 0 := by
      rintro rfl
      exact hwidth (by decide)
    have hlog : 53 ≤ n.log2 := (Nat.le_log2 hn).2 (Nat.not_lt.1 hwidth)
    obtain ⟨a, b, -, -, hvalue⟩ := patternValue_patternOfRatio hn Nat.one_ne_zero
    obtain ⟨k, hk⟩ : ∃ k : Nat, exponentOfRatio n 1 = k := by
      have hexponent := exponentOfRatio_eq_log hn Nat.one_ne_zero
      rw [Nat.cast_one, div_one, Int.log_natCast, ← Nat.log2_eq_log_two, leastExponent] at hexponent
      exact Int.eq_ofNat_of_zero_le (by omega)
    refine ⟨roundDiv a b * 2 ^ k, ?_⟩
    rw [hvalue, hk, zpow_natCast]
    push_cast
    rfl

theorem exists_patternOf_natCast (hvalue : patternValue pattern = n) (hn : n ≠ 0) : ∃ mantissa,
    patternOf mantissa ((n.log2 : Int) - 52) = pattern ∧ 2 ^ 52 ≤ mantissa ∧ mantissa < 2 ^ 53 := by
  obtain ⟨mantissa, exponent, rfl, hnormalized⟩ := exists_patternOf pattern
  rw [hnormalized.patternValue_eq] at hvalue
  obtain ⟨hwidth, hleast, hnormal⟩ := hnormalized
  have hmantissa : mantissa ≠ 0 := by
    rintro rfl
    rw [Nat.cast_zero, zero_mul] at hvalue
    exact hn (by exact_mod_cast hvalue.symm)
  have hlog := log_natCast_mul_zpow (b := 2) (by decide) hmantissa exponent
  rw [Nat.cast_ofNat, hvalue, Int.log_natCast, ← Nat.log2_eq_log_two, ← Nat.log2_eq_log_two] at hlog
  have hlt := (Nat.log2_lt hmantissa).2 hwidth
  rw [leastExponent] at hnormal
  rcases hnormal with hwide | hsubnormal
  · have hlog52 := (Nat.le_log2 hmantissa).2 hwide
    obtain rfl : exponent = (n.log2 : Int) - 52 := by omega
    exact ⟨mantissa, rfl, hwide, hwidth⟩
  · omega

section

variable (hfactor : factor ≠ 0) (hvalue : patternValue pattern = n)
  (hquotient : (num / den : ℚ) = patternValue (patternOfRatio (n * factor) 1) / factor)

include hfactor hvalue hquotient

theorem patternOfRatio_scaled_of_exact (hden : den ≠ 0)
    (h : patternValue (patternOfRatio (n * factor) 1) = (n * factor : Nat)) :
    patternOfRatio num den = pattern := by
  have hf : (factor : ℚ) ≠ 0 := by exact_mod_cast hfactor
  apply patternOfRatio_of_patternValue hden
  rw [hquotient, h, hvalue, Nat.cast_mul, mul_div_cancel_right₀ _ hf]

theorem patternOfRatio_scaled_of_lt (hden : den ≠ 0) (h : n * factor < 2 ^ 53) :
    patternOfRatio num den = pattern :=
  patternOfRatio_scaled_of_exact hfactor hvalue hquotient hden
    (patternValue_patternOfRatio_natCast h)

theorem abs_scaled_sub_eq : |(num / den : ℚ) - patternValue pattern| =
    |patternValue (patternOfRatio (n * factor) 1) - n * factor| / factor := by
  have hf : (0 : ℚ) < factor := by exact_mod_cast Nat.pos_of_ne_zero hfactor
  rw [hquotient, hvalue, ← abs_of_pos hf, ← abs_div, abs_of_pos hf, sub_div,
    mul_div_cancel_right₀ _ hf.ne']

theorem patternOfRatio_scaled_close (hden : den ≠ 0) :
    patternOfRatio num den ≤ pattern + 1 ∧ pattern ≤ patternOfRatio num den + 1 := by
  have hf : (0 : ℚ) < factor := by exact_mod_cast Nat.pos_of_ne_zero hfactor
  by_cases hn : n = 0
  · rw [patternOfRatio_scaled_of_lt hfactor hvalue hquotient hden (by simp [hn])]
    exact ⟨Nat.le_succ _, Nat.le_succ _⟩
  apply patternOfRatio_close hden
  have hone : (1 : ℚ) ≤ (n * factor : Nat) / (1 : Nat) := by
    rw [Nat.cast_one, div_one]
    exact_mod_cast Nat.pos_of_ne_zero (Nat.mul_ne_zero hn hfactor)
  have herror := abs_patternValue_sub_le_of_one_le Nat.one_ne_zero hone
  rw [Nat.cast_one, div_one, Nat.cast_mul] at herror
  calc |(num / den : ℚ) - patternValue pattern|
      = |patternValue (patternOfRatio (n * factor) 1) - n * factor| / factor :=
        abs_scaled_sub_eq hfactor hvalue hquotient
    _ ≤ n * factor / 2 ^ 53 / factor := by gcongr
    _ = patternValue pattern / 2 ^ 53 := by
        rw [hvalue]
        field_simp

theorem abs_scaled_sub_lt (hn : n ≠ 0) (hlog : (n * factor).log2 = n.log2 + factor.log2)
    (hpower : 2 ^ factor.log2 < factor) : |patternValue pattern - num / den| <
      1 / 2 * 2 ^ ((n.log2 : Int) - 52) := by
  have hf : (0 : ℚ) < factor := by exact_mod_cast Nat.pos_of_ne_zero hfactor
  have hproduct := Nat.mul_ne_zero hn hfactor
  have hexponent : exponentOfRatio (n * factor) 1 = (n.log2 : Int) - 52 + factor.log2 := by
    rw [exponentOfRatio_eq_log hproduct Nat.one_ne_zero, Nat.cast_one,
      div_one, Int.log_natCast, ← Nat.log2_eq_log_two, hlog, leastExponent]
    omega
  have herror := abs_patternValue_sub_le_half_unit hproduct Nat.one_ne_zero
  rw [Nat.cast_one, div_one, Nat.cast_mul, hexponent, zpow_add₀ two_ne_zero, zpow_natCast] at herror
  have hless : (2 ^ factor.log2 : ℚ) < factor := by exact_mod_cast hpower
  calc |patternValue pattern - num / den|
      = |patternValue (patternOfRatio (n * factor) 1) - n * factor| / factor := by
        rw [abs_sub_comm, abs_scaled_sub_eq hfactor hvalue hquotient]
    _ ≤ 1 / 2 * (2 ^ ((n.log2 : Int) - 52) * 2 ^ factor.log2) / factor := by gcongr
    _ = 1 / 2 * 2 ^ ((n.log2 : Int) - 52) * (2 ^ factor.log2 / factor) := by ring
    _ < 1 / 2 * 2 ^ ((n.log2 : Int) - 52) * 1 := by
        gcongr
        rwa [div_lt_one hf]
    _ = 1 / 2 * 2 ^ ((n.log2 : Int) - 52) := mul_one _

theorem patternOfRatio_scaled_of_log (hden : den ≠ 0)
    (hlog : (n * factor).log2 = n.log2 + factor.log2)
    (hpower : 2 ^ factor.log2 < factor) (hwidth : factor < 2 ^ 53) :
      patternOfRatio num den = pattern := by
  by_cases hn : n = 0
  · exact patternOfRatio_scaled_of_lt hfactor hvalue hquotient hden (by simp [hn])
  have herror := abs_scaled_sub_lt hfactor hvalue hquotient hn hlog hpower
  obtain ⟨mantissa, rfl, hwide, hnarrow⟩ := exists_patternOf_natCast hvalue hn
  have hleast : leastExponent ≤ (n.log2 : Int) - 52 := by
    rw [leastExponent]
    omega
  rcases Nat.eq_or_lt_of_le hwide with rfl | habove
  · -- The neighbour below a power of two is closer, but such a power times the factor is a double.
    apply patternOfRatio_scaled_of_exact hfactor hvalue hquotient hden
    have hpow : (n : ℚ) = 2 ^ (n.log2 : Int) := by
      rw [← hvalue, patternValue_patternOf (by decide) hleast (.inl (Nat.le_refl _)),
        Nat.cast_pow, Nat.cast_ofNat, ← zpow_natCast, ← zpow_add₀ two_ne_zero]
      congr 1
      push_cast
      ring
    have hexact :
        patternValue (patternOfRatio (n * factor) 1) = ((n * factor : Nat) / (1 : Nat) : ℚ) :=
      patternValue_patternOfRatio_of_exact n.log2 Nat.one_ne_zero hwidth
        (by rw [leastExponent]; omega)
        (by rw [Nat.cast_one, div_one, Nat.cast_mul, mul_comm, ← hpow])
    rw [hexact, Nat.cast_one, div_one]
  · have hself := patternValue_patternOf hnarrow.le hleast (.inl hwide)
    apply patternOfRatio_eq_of_close hden
    · intro smaller hsmaller
      obtain rfl : smaller = patternOf (mantissa - 1) ((n.log2 : Int) - 52) := by
        rw [patternOf] at hsmaller ⊢
        omega
      rw [hself, patternValue_patternOf (by omega) hleast (.inl (by omega)),
        Nat.cast_sub (by omega), Nat.cast_one]
      rw [hself] at herror
      linarith
    · have hnext : patternOf mantissa ((n.log2 : Int) - 52) + 1 =
        patternOf (mantissa + 1) ((n.log2 : Int) - 52) :=
        Nat.add_assoc _ _ _
      rw [hnext, hself, patternValue_patternOf (by omega) hleast (.inl (by omega)),
        Nat.cast_add, Nat.cast_one]
      rw [hself] at herror
      linarith

end

end Binary64

namespace Elementary

open Binary64

theorem powerOfTen_lt (h : decimals ≤ maxDecimals) : 10 ^ decimals < 2 ^ 53 :=
  (Nat.pow_le_pow_right (by decide) h).trans_lt (by decide)

theorem two_pow_log2_lt (h : decimals ≤ maxDecimals) (hnone : decimals ≠ 0) :
    2 ^ (10 ^ decimals).log2 < 10 ^ decimals := by
  have hall : ∀ d, d < maxDecimals + 1 → d ≠ 0 → 2 ^ (10 ^ d).log2 < 10 ^ d := by decide +kernel
  exact hall decimals (Nat.lt_succ_of_le h) hnone

theorem powerOfTen_eq (h : decimals ≤ maxDecimals) : ∃ pattern < infinityPattern,
    powerOfTen decimals = floatOfPattern false pattern ∧
    patternValue pattern = (10 ^ decimals : Nat) := by
  have hvalue := patternValue_patternOfRatio_natCast (powerOfTen_lt h)
  have hpattern : patternOfRatio (10 ^ decimals) 1 < infinityPattern := by
    rw [← strictMono_patternValue.lt_iff_lt, hvalue, patternValue_infinityPattern]
    calc ((10 ^ decimals : Nat) : ℚ) < 2 ^ 53 := by exact_mod_cast powerOfTen_lt h
      _ < 2 ^ 1024 := pow_lt_pow_right₀ one_lt_two (by decide)
  exact ⟨_, hpattern, by rw [powerOfTen, floatOfRatio, Nat.min_eq_left hpattern.le], hvalue⟩

theorem patternValue_le_of_lt_infinityPattern (h : pattern < infinityPattern) :
    patternValue pattern ≤ 2 ^ 1024 - 2 ^ 971 := by
  have hgreatest : patternOf (2 ^ 53 - 1) 971 = infinityPattern - 1 := by decide
  have hvalue := patternValue_patternOf (by decide : 2 ^ 53 - 1 ≤ 2 ^ 53)
    (by decide : leastExponent ≤ 971) (.inl (by decide))
  calc patternValue pattern ≤ patternValue (infinityPattern - 1) :=
        strictMono_patternValue.monotone (Nat.le_sub_one_of_lt h)
    _ = ((2 ^ 53 - 1 : Nat) : ℚ) * 2 ^ (971 : Int) := by rw [← hgreatest, hvalue]
    _ = (2 ^ 53 - 1) * 2 ^ 971 := by
        rw [Nat.cast_sub (by decide), Nat.cast_pow, Nat.cast_ofNat, Nat.cast_one]
        rfl
    _ = 2 ^ 1024 - 2 ^ 971 := by rw [sub_mul, ← pow_add, one_mul]

theorem infinityPattern_le (h : 2 ^ 1024 - 2 ^ 970 ≤ n) : infinityPattern ≤ patternOfRatio n 1 := by
  rcases Nat.eq_or_lt_of_le h with rfl | habove
  · decide +kernel
  by_contra hless
  have hgreatest := patternValue_le_of_lt_infinityPattern (Nat.not_le.1 hless)
  have hnearest := abs_patternValue_sub_le n Nat.one_ne_zero infinityPattern
  have hn : (2 ^ 1024 : ℚ) < n + 2 ^ 970 := by
    have hnat := lt_add_of_tsub_lt_right habove
    rw [← Nat.cast_lt (α := ℚ), Nat.cast_add, Nat.cast_pow, Nat.cast_pow, Nat.cast_ofNat] at hnat
    exact hnat
  have hdouble : (2 ^ 971 : ℚ) = 2 * 2 ^ 970 := pow_succ' 2 970
  have hhalf : (0 : ℚ) < 2 ^ 970 := pow_pos two_pos 970
  have herror := neg_le_abs (patternValue (patternOfRatio n 1) - n)
  rw [patternValue_infinityPattern, Nat.cast_one, div_one] at hnearest
  generalize (2 : ℚ) ^ 1024 = bound, (2 : ℚ) ^ 971 = unit, (2 : ℚ) ^ 970 = half at *
  rcases abs_cases (bound - n) with ⟨habs, -⟩ | ⟨habs, -⟩
  · linarith
  · linarith

theorem succ_lt_infinityPattern (hn : patternValue pattern = n) (hnone : decimals ≠ 0)
    (h : patternOfRatio (n * 10 ^ decimals) 1 < infinityPattern) :
      pattern + 1 < infinityPattern := by
  rcases Nat.eq_zero_or_pos pattern with rfl | hpos
  · decide
  · refine (le_patternOfRatio_of_le Nat.one_ne_zero ?_).trans_lt h
    have hten : 2 ≤ 10 ^ decimals := (by decide : 2 ≤ 10 ^ 1).trans
      (Nat.pow_le_pow_right (by decide) (by omega))
    calc patternValue (pattern + 1) ≤ 2 * patternValue pattern := patternValue_succ_le_double hpos
      _ = (n * 2 : Nat) := by rw [hn]; push_cast; ring
      _ ≤ (n * 10 ^ decimals : Nat) := by exact_mod_cast Nat.mul_le_mul_left n hten
      _ = (n * 10 ^ decimals : Nat) / (1 : Nat) := by rw [Nat.cast_one, div_one]

section

variable (hpattern : pattern < infinityPattern) (hn : patternValue pattern = n)
  (hdecimals : decimals ≤ maxDecimals)

include hpattern hn hdecimals

theorem mul_powerOfTen (negative : Bool) : floatOfPattern negative pattern * powerOfTen decimals =
    floatOfPattern negative (min (patternOfRatio (n * 10 ^ decimals) 1) infinityPattern) := by
  obtain ⟨tens, htens, hpower, hvalue⟩ := powerOfTen_eq hdecimals
  have hexact : ((n * 10 ^ decimals : Nat) / (1 : Nat) : ℚ) =
      magnitude (floatOfPattern negative pattern) * magnitude (floatOfPattern false tens) := by
    rw [magnitude_floatOfPattern negative hpattern, magnitude_floatOfPattern false htens,
      hn, hvalue, Nat.cast_one, div_one, Nat.cast_mul]
  have hproduct := mul_eq_floatOfRatio (isFinite_floatOfPattern hpattern)
    (isFinite_floatOfPattern htens)
    Nat.one_ne_zero hexact
  rw [hpower, hproduct, isNegative_floatOfPattern negative hpattern,
    isNegative_floatOfPattern false htens, Bool.bne_false]
  rfl

theorem round_of_infinite (negative : Bool) (hnone : decimals ≠ 0)
    (h : infinityPattern ≤ patternOfRatio (n * 10 ^ decimals) 1) :
    round (floatOfPattern negative pattern) decimals = .ok (floatOfPattern negative pattern) := by
  have hinfinite : (floatOfPattern false infinityPattern).isFinite = false := by decide +kernel
  have hscaled :
      ((floatOfPattern negative pattern).abs * powerOfTen decimals).isFinite = false := by
    rw [abs_floatOfPattern negative hpattern, mul_powerOfTen hpattern hn hdecimals,
      Nat.min_eq_right h, hinfinite]
  rw [round, if_neg (Nat.not_lt.2 hdecimals), if_neg hnone]
  simp only [hscaled, Bool.false_eq_true, if_false]

theorem round_of_finite (negative : Bool) (hnone : decimals ≠ 0)
    (h : patternOfRatio (n * 10 ^ decimals) 1 < infinityPattern) : ∃ k : Nat,
    (k / (10 ^ decimals : Nat) : ℚ) = patternValue (patternOfRatio (n * 10 ^ decimals) 1) /
      (10 ^ decimals : Nat) ∧
      round (floatOfPattern negative pattern) decimals =
        .ok (floatOfRatio negative k (10 ^ decimals)) := by
  obtain ⟨k, hk⟩ := exists_natCast_patternValue (n * 10 ^ decimals)
  obtain ⟨tens, htens, hpower, hvalue⟩ := powerOfTen_eq hdecimals
  have hten : (10 ^ decimals : Nat) ≠ 0 := pow_ne_zero decimals (by decide)
  refine ⟨k, by rw [hk], ?_⟩
  have hscaled : ((floatOfPattern negative pattern).abs * powerOfTen decimals).isFinite = true := by
    rw [abs_floatOfPattern negative hpattern, mul_powerOfTen hpattern hn hdecimals,
      Nat.min_eq_left h.le]
    exact isFinite_floatOfPattern h
  have hwhole := (magnitude_floatOfPattern negative h).trans hk
  have hdivisor := (magnitude_floatOfPattern false htens).trans hvalue
  have hquotient := div_eq_floatOfRatio (isFinite_floatOfPattern h)
    (isFinite_floatOfPattern htens) hten
    (hdivisor ▸ by exact_mod_cast hten) (congrArg₂ (· / ·) hwhole hdivisor).symm
  rw [isNegative_floatOfPattern negative h, isNegative_floatOfPattern false htens,
    Bool.bne_false, ← hpower]
    at hquotient
  rw [round, if_neg (Nat.not_lt.2 hdecimals), if_neg hnone]
  simp only [hscaled, if_true]
  rw [mul_powerOfTen hpattern hn hdecimals, Nat.min_eq_left h.le,
    roundEven_eq_self (isFinite_floatOfPattern h) hwhole, hquotient]

end

/-- A whole number rounded to decimals stays as it is or becomes one of its neighbours. It stays
where the product with the power of ten is below `2 ^ 53`, where it is rounded to infinity, and
where its binary logarithm is the sum of those of the number and the power of ten. -/
theorem round_of_isWhole (hwhole : isWhole x = true) (hdecimals : decimals ≤ maxDecimals) :
    ∃ y, round x decimals = .ok y ∧ y.isFinite = true ∧ isNegative y = isNegative x ∧
      |signedPattern y - signedPattern x| ≤ 1 ∧
      (wholePart x * 10 ^ decimals < 2 ^ 53 ∨ 2 ^ 1024 - 2 ^ 970 ≤ wholePart x * 10 ^ decimals ∨
        (wholePart x * 10 ^ decimals).log2 = (wholePart x).log2 + (10 ^ decimals).log2 →
          y = x) := by
  obtain ⟨hfinite, hmagnitude⟩ := magnitude_of_isWhole hwhole
  by_cases hnone : decimals = 0
  · refine ⟨x, ?_, hfinite, rfl, by simp, fun _ => rfl⟩
    rw [round, if_neg (Nat.not_lt.2 hdecimals), if_pos hnone, roundEven_eq_self hfinite hmagnitude]
  generalize wholePart x = n at hmagnitude ⊢
  obtain ⟨negative, pattern, hpattern, rfl⟩ := exists_floatOfPattern hfinite
  have hn : patternValue pattern = n :=
    (magnitude_floatOfPattern negative hpattern).symm.trans hmagnitude
  have hten : (10 ^ decimals : Nat) ≠ 0 := pow_ne_zero decimals (by decide)
  rcases Nat.lt_or_ge (patternOfRatio (n * 10 ^ decimals) 1) infinityPattern with hlt | hge
  · obtain ⟨k, hquotient, hround⟩ := round_of_finite hpattern hn hdecimals negative hnone hlt
    obtain ⟨habove, hbelow⟩ := patternOfRatio_scaled_close hten hn hquotient hten
    have hresult := habove.trans_lt (succ_lt_infinityPattern hn hnone hlt)
    rw [floatOfRatio, Nat.min_eq_left hresult.le] at hround
    refine ⟨_, hround, isFinite_floatOfPattern hresult, ?sign, ?neighbour, ?same⟩
    case sign => rw [isNegative_floatOfPattern negative hresult,
      isNegative_floatOfPattern negative hpattern]
    case neighbour =>
      rw [signedPattern_floatOfPattern negative hresult,
        signedPattern_floatOfPattern negative hpattern, abs_le]
      split <;> omega
    case same =>
      rintro (hsmall | hlarge | hlog)
      · rw [patternOfRatio_scaled_of_lt hten hn hquotient hten hsmall]
      · exact absurd hlt (Nat.not_lt.2 (infinityPattern_le hlarge))
      · rw [patternOfRatio_scaled_of_log hten hn hquotient hten hlog
          (two_pow_log2_lt hdecimals hnone) (powerOfTen_lt hdecimals)]
  · have hround := round_of_infinite hpattern hn hdecimals negative hnone hge
    exact ⟨_, hround, isFinite_floatOfPattern hpattern, rfl, by simp, fun _ => rfl⟩

theorem round_of_isWhole_beyond : isWhole 9007199254740994 = true ∧ 1 ≤ maxDecimals ∧
    round 9007199254740994 1 = .ok 9007199254740994 := by
  have hwhole : isWhole 9007199254740994 = true := by decide +kernel
  have hdecimals : 1 ≤ maxDecimals := by decide
  obtain ⟨y, hround, -, -, -, hsame⟩ := round_of_isWhole hwhole hdecimals
  rw [hsame (.inr (.inr (by decide +kernel)))] at hround
  exact ⟨hwhole, hdecimals, hround⟩

/-- Some whole number below `10 ^ 16` and beyond `2 ^ 53` does not stay. -/
theorem round_whole_moves : 2 ^ 53 ≤ wholePart 9404443519569450 ∧ isWhole 9404443519569450 = true ∧
    3 ≤ maxDecimals ∧
    round 9404443519569450 3 = .ok 9404443519569452 ∧
    round 9404443519569450 3 ≠ .ok 9404443519569450 := by
  have hround : round 9404443519569450 3 = .ok 9404443519569452 := by
    rw [round, if_neg (by decide), if_neg (by decide)]
    have hfinite : ((9404443519569450 : Float).abs * powerOfTen 3).isFinite = true := by
      decide +kernel
    have hquotient : roundEven (9404443519569450 * powerOfTen 3) / powerOfTen 3 =
      9404443519569452 := by decide +kernel
    simp only [hfinite, if_true, hquotient]
  refine ⟨by decide +kernel, by decide +kernel, by decide, hround, ?_⟩
  rw [hround]
  intro hsame
  exact absurd (Except.ok.inj hsame) (by decide +kernel)

end Elementary

end Calculator
