import Calculator.Decimal.Shortest
import Calculator.Proofs.Binary64.Nearest

/-!
# Shortest digits read back

The double nearest to a decimal depends on the value of the decimal alone, so it is the same in
every layout of the digits. The digits chosen for a double read back as that double, bit for bit.
-/

namespace Calculator.Decimal

open Binary64

def value (d : Decimal) : ℚ :=
  d.digits * 10 ^ d.exponent

variable {d d' : Decimal}

theorem length_digitChars (n : Nat) : (digitChars n).length = Nat.log 10 n + 1 := by
  have hle : (digitChars n).length ≤ Nat.log 10 n + 1 :=
    (Nat.length_toDigits_le_iff (by decide) (Nat.succ_pos _)).2
      (Nat.lt_pow_succ_log_self (by decide) n)
  have hge : ∀ k, Nat.log 10 n = k + 1 → k + 1 < (digitChars n).length := by
    intro k hk
    refine Nat.lt_of_not_le fun h => ?_
    have hlt := (Nat.length_toDigits_le_iff (by decide) (Nat.succ_pos k)).1 h
    have hlog := Nat.log_lt_of_lt_pow (by rintro rfl; simp at hk) hlt
    omega
  have hpos : 0 < (digitChars n).length := Nat.length_toDigits_pos
  cases hlog : Nat.log 10 n with
  | zero => omega
  | succ k =>
    have := hge k hlog
    omega

theorem scientificExponent_eq_log (h : d.digits ≠ 0) :
    d.scientificExponent = Int.log 10 d.value := by
  have hlog := log_natCast_mul_zpow (b := 10) (by decide) h d.exponent
  rw [Nat.cast_ofNat] at hlog
  rw [value, hlog, scientificExponent, length_digitChars]
  push_cast
  ring

theorem ratio_den_ne_zero (d : Decimal) : d.ratio.2 ≠ 0 :=
  fractionOf_den_ne_zero (by decide) d.digits d.exponent

theorem ratio_value (d : Decimal) : (d.ratio.1 / d.ratio.2 : ℚ) = d.value :=
  fractionOf_value 10 d.digits d.exponent

theorem pattern?_congr (h : d.value = d'.value) : d.pattern? = d'.pattern? := by
  have hzero : d.digits = 0 ↔ d'.digits = 0 := by
    have hvalue : ∀ c : Decimal, c.digits = 0 ↔ c.value = 0 := by
      intro c
      simp [value, zpow_ne_zero]
    rw [hvalue d, hvalue d', h]
  unfold pattern?
  by_cases hd : d.digits = 0
  · simp [hd, hzero.1 hd]
  · have hd' : d'.digits ≠ 0 := fun h' => hd (hzero.2 h')
    have hexponent : d.scientificExponent = d'.scientificExponent := by
      rw [scientificExponent_eq_log hd, scientificExponent_eq_log hd', h]
    have hpattern : patternOfRatio d.ratio.1 d.ratio.2 = patternOfRatio d'.ratio.1 d'.ratio.2 :=
      patternOfRatio_congr (ratio_den_ne_zero d) (ratio_den_ne_zero d')
        (by rw [ratio_value, ratio_value, h])
    simp only [hd, hd', if_false, hexponent, hpattern]

theorem nearest?_of_pattern? {pattern : Nat} (negative : Bool) (h : d.pattern? = some pattern) :
    nearest? negative d = some (floatOfPattern negative pattern) := by
  rw [nearest?, h, Option.map_some]

theorem nearest?_congr (negative : Bool) (h : d.value = d'.value) :
    nearest? negative d = nearest? negative d' := by
  rw [nearest?, nearest?, pattern?_congr h]

theorem value_shift (digits : Nat) (exponent : Int) (k : Nat) :
    value ⟨digits * 10 ^ k, exponent - k⟩ = value ⟨digits, exponent⟩ := by
  simp only [value]
  push_cast
  rw [mul_assoc, ← zpow_natCast, ← zpow_add₀ (by norm_num)]
  congr 2
  ring

variable {mantissa : Nat} {exponent : Int}

theorem exact_value (mantissa : Nat) (exponent : Int) :
    (exact mantissa exponent).value = mantissa * 2 ^ exponent := by
  unfold exact value
  split
  · next h =>
    lift exponent to ℕ using h with k
    simp
  · next h =>
    obtain ⟨k, rfl⟩ := Int.exists_eq_neg_ofNat (Int.le_of_not_le h)
    have hten : (10 : ℚ) ^ k = 5 ^ k * 2 ^ k := by rw [← mul_pow]; norm_num
    simp only [neg_neg, Int.toNat_natCast, zpow_neg, zpow_natCast, hten]
    push_cast
    field_simp

theorem exact_digits_ne_zero (h : mantissa ≠ 0) : (exact mantissa exponent).digits ≠ 0 := by
  unfold exact
  split <;> simp [h]

theorem two_pow_le_ten_pow (k : ℕ) : (2 : ℚ) ^ (3 * k) ≤ 10 ^ k := by
  rw [pow_mul]
  exact pow_le_pow_left₀ (by norm_num) (by norm_num) k

theorem log_ten_bounds (hmantissa : mantissa ≠ 0) (hwidth : mantissa < 2 ^ 53)
    (hleast : leastExponent ≤ exponent) (hgreatest : exponent ≤ 971) :
    -exponentBound ≤ Int.log 10 (mantissa * 2 ^ exponent : ℚ) ∧
      Int.log 10 (mantissa * 2 ^ exponent : ℚ) ≤ exponentBound := by
  have hone : (1 : ℚ) ≤ mantissa := by exact_mod_cast Nat.pos_of_ne_zero hmantissa
  have hpos : (0 : ℚ) < mantissa * 2 ^ exponent := by positivity
  constructor
  · refine (Int.zpow_le_iff_le_log (b := 10) (by decide) hpos).1 ?_
    calc ((10 : ℕ) : ℚ) ^ (-exponentBound) ≤ 2 ^ leastExponent := by
          rw [exponentBound, leastExponent, zpow_neg, zpow_neg, zpow_ofNat, zpow_ofNat]
          refine inv_anti₀ (by positivity) (le_trans ?_ (two_pow_le_ten_pow 400))
          exact pow_le_pow_right₀ (by norm_num) (by norm_num)
      _ ≤ 2 ^ exponent := zpow_le_zpow_right₀ (by norm_num) hleast
      _ ≤ mantissa * 2 ^ exponent := le_mul_of_one_le_left (by positivity) hone
  · refine Int.lt_add_one_iff.1 ((Int.lt_zpow_iff_log_lt (b := 10) (by decide) hpos).1 ?_)
    calc (mantissa * 2 ^ exponent : ℚ) ≤ 2 ^ (53 : ℕ) * 2 ^ (971 : ℤ) := by
          have hwide : (mantissa : ℚ) ≤ 2 ^ (53 : ℕ) := by exact_mod_cast hwidth.le
          have hpow : (2 : ℚ) ^ exponent ≤ 2 ^ (971 : ℤ) :=
            zpow_le_zpow_right₀ (by norm_num) hgreatest
          gcongr
      _ < ((10 : ℕ) : ℚ) ^ (exponentBound + 1) := by
          rw [zpow_ofNat, ← pow_add]
          exact (pow_lt_pow_right₀ (by norm_num) (by omega)).trans_le (two_pow_le_ten_pow 401)

theorem pattern?_exact (hmantissa : mantissa ≠ 0) (hwidth : mantissa < 2 ^ 53)
    (hleast : leastExponent ≤ exponent) (hgreatest : exponent ≤ 971)
    (hnormal : 2 ^ 52 ≤ mantissa ∨ exponent = leastExponent)
    (hfinite : patternOf mantissa exponent < infinityPattern) :
    (exact mantissa exponent).pattern? = some (patternOf mantissa exponent) := by
  have hdigits : (exact mantissa exponent).digits ≠ 0 := exact_digits_ne_zero hmantissa
  obtain ⟨hlow, hhigh⟩ := log_ten_bounds hmantissa hwidth hleast hgreatest
  rw [← exact_value, ← scientificExponent_eq_log hdigits] at hlow hhigh
  have hpattern : patternOfRatio (exact mantissa exponent).ratio.1
    (exact mantissa exponent).ratio.2 =
      patternOf mantissa exponent := by
    rw [← patternOfRatio_ratio hmantissa hwidth hleast hnormal]
    exact patternOfRatio_congr (ratio_den_ne_zero _) (Binary64.ratio_den_ne_zero _ _)
      (by rw [ratio_value, exact_value, Binary64.ratio_value])
  simp only [pattern?, hdigits, if_false, hpattern, hfinite, if_true]
  rw [if_neg (by omega), if_neg (by omega)]

variable {negative : Bool} {pattern : Nat}

/-- The digits chosen for a double read back as its pattern. -/
theorem pattern?_shortest (tie : TieRule) (hpattern : pattern < infinityPattern)
    (h : ofPattern negative pattern = .finite negative mantissa exponent) :
    (shortest tie mantissa exponent).pattern? = some pattern := by
  obtain ⟨m, e, hparts, hback, hwidth, hleast, hgreatest, hnormal⟩ :=
    ofPattern_eq_finite negative hpattern
  obtain ⟨rfl, rfl⟩ : m = mantissa ∧ e = exponent := by
    rw [h] at hparts
    cases hparts
    exact ⟨rfl, rfl⟩
  unfold shortest
  split
  · next hzero =>
    -- A pattern of mantissa zero belongs to the least exponent, hence to zero.
    subst hzero
    have hleast' : e = leastExponent := hnormal.resolve_left (by decide)
    rw [pattern?_zero, ← hback, hleast', patternOf]
    simp
  · next hne =>
    simp only
    cases hfound : (List.range 17).findSome? fun (n : Nat) => onGrid? tie (patternOf m e)
        (Binary64.ratio m e).1 (Binary64.ratio m e).2
        (magnitude (Binary64.ratio m e).1 (Binary64.ratio m e).2 - 1 - n) with
    | none =>
      rw [Option.getD_none, pattern?_exact hne hwidth hleast hgreatest hnormal
        (hback ▸ hpattern), hback]
    | some found =>
      obtain ⟨n, -, hn⟩ := List.exists_of_findSome?_eq_some hfound
      rw [Option.getD_some, pattern?_of_onGrid? hn, hback]

theorem exponent_shortest_of_digits_eq_zero (tie : TieRule) (hpattern : pattern < infinityPattern)
    (h : ofPattern negative pattern = .finite negative mantissa exponent)
    (hdigits : (shortest tie mantissa exponent).digits = 0) :
      (shortest tie mantissa exponent).exponent = 0 := by
  by_cases hmantissa : mantissa = 0
  · rw [hmantissa, shortest_zero]
  · have hread := pattern?_shortest tie hpattern h
    have hback := patternOf_ofPattern h
    rw [pattern?, if_pos hdigits, Option.some.injEq] at hread
    rw [patternOf] at hback
    omega

end Calculator.Decimal
