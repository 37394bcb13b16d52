import Calculator.Binary64.Order
import Calculator.Proofs.Binary64.Pattern

/-!
# Operations on finite doubles

The operations see a double as sign, mantissa and exponent, the same parts that its pattern has. A
product is rounded twice, the second time after a carry, which raises the exponent by one at most;
so a product is finite unless the exponents are large. A sum is finite only if both of its terms
are. The order of finite doubles is that of their parts.
-/

namespace Calculator.Binary64

open Float.Model (Format UnpackedFloat totalExponent)
open Float.Model.UnpackedFloat

variable {x y : Float} {negative negative' : Bool} {mantissa mantissa' : Nat}
  {exponent exponent' : Int}

def signOf (negative : Bool) : Sign :=
  if negative then .negative else .positive

def unpacked (negative : Bool) (mantissa : Nat) (exponent : Int) : UnpackedFloat :=
  if h : mantissa = 0 then .zero (signOf negative)
  else .finite (signOf negative) mantissa exponent (Nat.pos_of_ne_zero h)

theorem ofBitVec_unpackSign (b : BitVec Format.binary64.numBits) :
    Sign.ofBitVec (unpackSign b) = signOf (2 ^ 63 ≤ b.toNat) := by
  have hb := b.isLt
  have hsign : (unpackSign b).toNat = b.toNat / 2 ^ 63 := by
    simp only [unpackSign, BitVec.extractLsb, BitVec.extractLsb', BitVec.toNat_cast,
      BitVec.toNat_ofNat, Nat.shiftRight_eq_div_pow]
    simp only [Format.numBits] at hb
    omega
  by_cases h : 2 ^ 63 ≤ b.toNat
  · have hone : unpackSign b ≠ 0#1 := by
      intro hzero
      rw [hzero, BitVec.toNat_ofNat] at hsign
      omega
    rw [Sign.ofBitVec, if_neg hone, signOf, decide_eq_true h, if_pos rfl]
  · have hzero : unpackSign b = 0#1 := by
      apply BitVec.eq_of_toNat_eq
      rw [hsign, BitVec.toNat_ofNat]
      omega
    rw [Sign.ofBitVec, if_pos hzero, signOf, decide_eq_false h]
    rfl

theorem toNat_unpackMantissa (b : BitVec Format.binary64.numBits) :
    (unpackMantissa b).toNat = b.toNat % 2 ^ 52 := by
  simp [unpackMantissa, BitVec.extractLsb]

theorem unpack_eq_unpacked {b : BitVec Format.binary64.numBits}
    (h : ofPattern (2 ^ 63 ≤ b.toNat) (b.toNat % 2 ^ 63) = .finite negative mantissa exponent) :
    unpack Format.binary64 b = unpacked negative mantissa exponent := by
  have hexponent := toNat_unpackExponent (b := b)
  have hmantissa := toNat_unpackMantissa b
  have hlt := (unpackMantissa b).isLt
  simp only [ofPattern] at h
  split at h
  · split at h <;> cases h
  next hfield =>
  have hfull : unpackExponent b ≠ -1#_ := by
    intro hfull
    rw [hfull] at hexponent
    simp only [BitVec.neg_one_eq_allOnes, BitVec.toNat_allOnes] at hexponent
    omega
  split at h
  · next hzero =>
    cases h
    have hnone : unpackExponent b = 0#_ := by
      apply BitVec.eq_of_toNat_eq
      rw [hexponent, BitVec.toNat_ofNat, Nat.zero_mod]
      omega
    have hfraction : b.toNat % 2 ^ 63 % 2 ^ 52 = (unpackMantissa b).toNat := by omega
    simp only [unpack, if_neg hfull, if_pos hnone, unpacked, ofBitVec_unpackSign, hfraction]
    split
    · next hempty => rw [dif_pos (by rw [hempty]; rfl)]
    · next hempty =>
      rw [dif_neg (by intro h; exact hempty (BitVec.eq_of_toNat_eq (by simpa using h)))]
      congr 1
      rw [hnone]
      rfl
  · next hzero =>
    cases h
    have hsome : unpackExponent b ≠ 0#_ := by
      intro hnone
      rw [hnone, BitVec.toNat_ofNat, Nat.zero_mod] at hexponent
      omega
    have himplicit : (1#1 ++ unpackMantissa b).toNat = 2 ^ 52 + b.toNat % 2 ^ 63 % 2 ^ 52 := by
      rw [BitVec.toNat_append, ← Nat.shiftLeft_add_eq_or_of_lt hlt, hmantissa, Nat.shiftLeft_eq]
      simp
    have hbiased : b.toNat % 2 ^ 63 / 2 ^ 52 = (unpackExponent b).toNat := by omega
    have hbias : (Format.binary64.exponentBias : Int) +
      Format.binary64.mantissaBitsWithoutImplicit = 1075 := by decide
    simp only [unpack, if_neg hfull, if_neg hsome, unpacked, ofBitVec_unpackSign,
      himplicit, hbiased, hbias]
    rw [dif_neg (by omega)]

theorem unpack_of_ofFloat (h : ofFloat x = .finite negative mantissa exponent) :
    unpack Format.binary64 x.toBits.toBitVec = unpacked negative mantissa exponent :=
  unpack_eq_unpacked h

theorem exists_parts (h : x.isFinite = true) :
    ∃ negative mantissa exponent, ofFloat x = .finite negative mantissa exponent ∧
    mantissa < 2 ^ 53 ∧
      leastExponent ≤ exponent ∧ exponent ≤ 971 ∧
      (2 ^ 52 ≤ mantissa ∨ exponent = leastExponent) := by
  obtain ⟨negative, pattern, hpattern, rfl⟩ := exists_floatOfPattern h
  obtain ⟨mantissa, exponent, hparts, -, hbounds⟩ := ofPattern_eq_finite negative hpattern
  exact ⟨negative, mantissa, exponent, (ofFloat_floatOfPattern hpattern).trans hparts, hbounds⟩

theorem isFinite_of_ofFloat (h : ofFloat x = .finite negative mantissa exponent) :
    x.isFinite = true := by
  have hunpack : x.isFinite = (unpacked negative mantissa exponent).isFinite :=
    congrArg Float.Model.UnpackedFloat.isFinite (unpack_of_ofFloat h)
  rw [hunpack, unpacked]
  split <;> rfl

theorem isNaN_of_isFinite (h : x.isFinite = true) : x.isNaN = false := by
  obtain ⟨negative, mantissa, exponent, hparts, -⟩ := exists_parts h
  have hunpack : x.isNaN = (unpacked negative mantissa exponent).isNaN :=
    congrArg Float.Model.UnpackedFloat.isNaN (unpack_of_ofFloat hparts)
  rw [hunpack, unpacked]
  split <;> rfl

theorem mantissa_shiftRight (em : ExtendedMantissa) (k : Nat) :
    (em >>> k).mantissa = em.mantissa / 2 ^ k := by
  induction k with
  | zero => exact (Nat.div_one em.mantissa).symm
  | succ k ih =>
    have hstep : (em >>> (k + 1)).mantissa = (em >>> k).mantissa / 2 := rfl
    rw [hstep, ih, Nat.div_div_eq_div_mul, Nat.pow_succ]

theorem roundedMantissa_le (em : ExtendedMantissa) : em.roundedMantissa ≤ em.mantissa + 1 := by
  obtain ⟨m, round, sticky⟩ := em
  cases round <;> cases sticky <;>
    simp only [ExtendedMantissa.roundedMantissa, ExtendedMantissa.accuracy,
      Accuracy.roundToNearestEven] <;> omega

theorem targetExponent_eq (total : Int) :
    Format.binary64.targetExponent total = max (total - 53) (-1074) := rfl

/-- Rounding leaves a mantissa of 53 bits, or one more by a carry, which the second shift takes
away. -/
theorem roundWithAccuracy_bound (s : Sign) (m : Nat) (e : Int) :
    roundWithAccuracy Format.binary64 s m e .exact = .zero s ∨
      ∃ m' e' h, roundWithAccuracy Format.binary64 s m e .exact = .finite s m' e' h ∧
        e' ≤ max e (max (totalExponent m e - 53) (-1074)) + 1 := by
  -- `k` is how far the mantissa is shifted to be rounded, and `j` how far it is shifted after that.
  obtain ⟨k, hk⟩ : ∃ k, (Format.binary64.targetExponent (totalExponent m e) - e).toNat = k :=
    ⟨_, rfl⟩
  obtain ⟨em, hem⟩ : ∃ em, ExtendedMantissa.ofMantissaAndAccuracy m .exact >>> k = em := ⟨_, rfl⟩
  have hmantissa : em.mantissa < 2 ^ 53 := by
    have hm := Nat.lt_log2_self (n := m)
    have hlog : m.log2 + 1 ≤ k + 53 := by
      rw [targetExponent_eq, totalExponent] at hk
      omega
    rw [← hem, mantissa_shiftRight]
    apply Nat.div_lt_of_lt_mul
    rw [← Nat.pow_add]
    exact Nat.lt_of_lt_of_le hm (Nat.pow_le_pow_right (by decide) hlog)
  have hrounded : em.roundedMantissa.log2 ≤ 53 := by
    have hle := roundedMantissa_le em
    by_cases hzero : em.roundedMantissa = 0
    · rw [hzero]
      decide
    · exact Nat.lt_succ_iff.1 ((Nat.log2_lt hzero).2 (by omega))
  have hfirst : shiftToTargetExponent Format.binary64 m e .exact = (em, e + k) := by
    rw [shiftToTargetExponent, shiftToExponent, hk, hem]
  obtain ⟨j, hj⟩ : ∃ j,
      (Format.binary64.targetExponent (totalExponent em.roundedMantissa (e + k)) -
        (e + k)).toNat = j :=
    ⟨_, rfl⟩
  have hlast :
      (shiftToTargetExponent Format.binary64 em.roundedMantissa (e + k) .exact).2 = e + k + j := by
    rw [shiftToTargetExponent, shiftToExponent, hj]
  have hexponent : e + k + j ≤ max e (max (totalExponent m e - 53) (-1074)) + 1 := by
    rw [targetExponent_eq] at hk hj
    rw [totalExponent] at hj
    omega
  simp only [roundWithAccuracy, hfirst]
  split
  · exact .inl rfl
  · next hne =>
    rw [← hlast] at hexponent
    exact .inr ⟨_, _, Nat.pos_of_ne_zero hne, rfl, hexponent⟩

theorem unpackExponent_pack_of_le {s : Sign} {m : Nat} {e : Int} (hm : 0 < m) (he : e ≤ 971) :
    unpackExponent (pack Format.binary64 (.finite s m e hm)) ≠ -1#_ := by
  have hbias : (Format.binary64.exponentBias : Int) + Format.binary64.mantissaBitsWithoutImplicit =
    1075 := by decide
  have hfield : (e + Format.binary64.exponentBias +
      Format.binary64.mantissaBitsWithoutImplicit).toNat < 2047 := by
    omega
  simp only [pack]
  rw [if_neg (by simp only [Format.binary64] at hfield ⊢; omega)]
  split
  · rw [unpackExponent_packComponents]
    intro hfull
    have htoNat := congrArg BitVec.toNat hfull
    rw [BitVec.toNat_ofNat, BitVec.neg_one_eq_allOnes, BitVec.toNat_allOnes] at htoNat
    simp only [Format.binary64] at hfield htoNat
    omega
  · rw [unpackExponent_packComponents]
    decide

theorem isFinite_mul (hx : ofFloat x = .finite negative mantissa exponent)
    (hwidth : mantissa < 2 ^ 53)
    (hy : ofFloat y = .finite negative' mantissa' exponent') (hwidth' : mantissa' < 2 ^ 53)
    (hexponent : exponent + exponent' ≤ 917) : (x * y).isFinite = true := by
  have htotal : totalExponent (mantissa * mantissa') (exponent + exponent') ≤ 1023 := by
    have hlog : (mantissa * mantissa').log2 ≤ 105 := by
      by_cases hzero : mantissa * mantissa' = 0
      · rw [hzero]
        decide
      · have hlt : mantissa * mantissa' < 2 ^ 53 * 2 ^ 53 := Nat.mul_lt_mul'' hwidth hwidth'
        rw [← Nat.pow_add] at hlt
        exact Nat.lt_succ_iff.1 ((Nat.log2_lt hzero).2 hlt)
    rw [totalExponent]
    omega
  have hmul : (x * y).isFinite = (unpack Format.binary64 (pack Format.binary64
      (mul Format.binary64 (unpack Format.binary64 x.toBits.toBitVec)
        (unpack Format.binary64 y.toBits.toBitVec)))).isFinite := rfl
  rw [hmul, isFinite_unpack, unpack_of_ofFloat hx, unpack_of_ofFloat hy]
  have hzero : ∀ s, unpackExponent (pack Format.binary64 (.zero s)) ≠ -1#_ := by
    intro s
    rw [pack, packedZero, unpackExponent_packComponents]
    decide
  simp only [unpacked]
  split
  · split
    · exact hzero _
    · exact hzero _
  · split
    · exact hzero _
    · simp only [mul]
      rcases roundWithAccuracy_bound (signOf negative * signOf negative') (mantissa * mantissa')
        (exponent + exponent') with h | ⟨m, e, hm, h, he⟩
      · rw [h]
        exact hzero _
      · rw [h]
        exact unpackExponent_pack_of_le hm (by omega)

theorem unpackExponent_pack_of_not_isFinite {u : UnpackedFloat} (h : u.isFinite = false) :
    unpackExponent (pack Format.binary64 u) = -1#_ := by
  cases u with
  | zero => cases h
  | finite => cases h
  | notANumber => decide
  | infinity s => rw [pack, packedInfinity, unpackExponent_packComponents]

theorem isFinite_of_add_unpacked {u v : UnpackedFloat}
    (h : (add Format.binary64 u v).isFinite = true) :
    u.isFinite = true ∧ v.isFinite = true := by
  cases u with
  | notANumber => cases h
  | infinity s =>
    cases v with
    | infinity t =>
      rw [add] at h
      split at h <;> cases h
    | _ => cases h
  | _ =>
    cases v with
    | notANumber => cases h
    | infinity => cases h
    | _ => exact ⟨rfl, rfl⟩

theorem isFinite_of_add (h : (x + y).isFinite = true) : x.isFinite = true ∧ y.isFinite = true := by
  have hadd : (x + y).isFinite = (unpack Format.binary64 (pack Format.binary64
      (add Format.binary64 (unpack Format.binary64 x.toBits.toBitVec)
        (unpack Format.binary64 y.toBits.toBitVec)))).isFinite := rfl
  rw [hadd, isFinite_unpack] at h
  exact isFinite_of_add_unpacked (Bool.of_not_eq_false fun hsum => h
    (unpackExponent_pack_of_not_isFinite hsum))

theorem le_iff_unpack : x ≤ y ↔
    UnpackedFloat.le (unpack Format.binary64 x.toBits.toBitVec)
    (unpack Format.binary64 y.toBits.toBitVec) = true :=
  decide_eq_true_iff

theorem lt_iff_unpack : x < y ↔
    UnpackedFloat.lt (unpack Format.binary64 x.toBits.toBitVec)
    (unpack Format.binary64 y.toBits.toBitVec) = true :=
  decide_eq_true_iff

theorem isLE_compare_parts :
    ((compare exponent exponent').then (compare mantissa mantissa')).isLE = true ↔
      exponent < exponent' ∨ exponent = exponent' ∧ mantissa ≤ mantissa' := by
  rw [Ordering.isLE_then_iff_or, Int.compare_eq_lt, Int.compare_eq_eq, Nat.isLE_compare]

theorem ratio_le_of_le_one (h : ofFloat x = .finite negative mantissa exponent)
    (hwidth : mantissa < 2 ^ 53) (hlow : -1 ≤ x) (hhigh : x ≤ 1) : (ratio mantissa exponent).1 ≤
      (ratio mantissa exponent).2 := by
  have hone : ofFloat 1 = .finite false (2 ^ 52) (-52) := by decide +kernel
  have hminus : ofFloat (-1) = .finite true (2 ^ 52) (-52) := by decide +kernel
  by_cases hzero : mantissa = 0
  · rw [hzero, ratio]
    split <;> simp
  have hparts : exponent < -52 ∨ exponent = -52 ∧ mantissa ≤ 2 ^ 52 := by
    cases negative with
    | false =>
      rw [le_iff_unpack, unpack_of_ofFloat h, unpack_of_ofFloat hone] at hhigh
      rw [← isLE_compare_parts]
      simpa [unpacked, hzero, UnpackedFloat.le, UnpackedFloat.compare, signOf] using hhigh
    | true =>
      rw [le_iff_unpack, unpack_of_ofFloat h, unpack_of_ofFloat hminus] at hlow
      rw [← isLE_compare_parts]
      simpa [unpacked, hzero, UnpackedFloat.le, UnpackedFloat.compare,
        signOf, Ordering.swap_then, Int.compare_swap,
        Nat.compare_swap, -Ordering.isLE_swap] using hlow
  rw [ratio, if_neg (by omega)]
  have hexponent : 2 ^ 53 ≤ 2 ^ (-exponent).toNat ∨ exponent = -52 ∧ mantissa ≤ 2 ^ 52 := by
    rcases hparts with hlt | heq
    · exact .inl (Nat.pow_le_pow_right (by decide) (by omega))
    · exact .inr heq
  rcases hexponent with hlarge | ⟨rfl, hle⟩
  · exact Nat.le_of_lt (Nat.lt_of_lt_of_le hwidth hlarge)
  · exact hle

theorem lt_infinity (h : x.isFinite = true) : x < 1 / 0 := by
  obtain ⟨negative, mantissa, exponent, hparts, -⟩ := exists_parts h
  have hinfinity :
      unpack Format.binary64 (1 / 0 : Float).toBits.toBitVec = .infinity .positive := rfl
  rw [lt_iff_unpack, unpack_of_ofFloat hparts, hinfinity, unpacked]
  split <;> rfl

theorem infinity_lt (h : x.isFinite = true) : -1 / 0 < x := by
  obtain ⟨negative, mantissa, exponent, hparts, -⟩ := exists_parts h
  have hinfinity :
      unpack Format.binary64 (-1 / 0 : Float).toBits.toBitVec = .infinity .negative := rfl
  rw [lt_iff_unpack, unpack_of_ofFloat hparts, hinfinity, unpacked]
  split <;> rfl

theorem smaller_eq_or (x y : Float) : smaller x y = x ∨ smaller x y = y := by
  unfold smaller
  split
  · exact .inr rfl
  split
  · exact .inl rfl
  split
  · exact .inr rfl
  · exact .inl rfl

theorem larger_eq_or (x y : Float) : larger x y = x ∨ larger x y = y := by
  unfold larger
  split
  · exact .inr rfl
  split
  · exact .inl rfl
  split
  · exact .inr rfl
  · exact .inl rfl

theorem smaller_infinity (h : x.isFinite = true) : smaller (1 / 0) x = x := by
  have hnumber : (1 / 0 : Float).isNaN = false := by decide +kernel
  rw [smaller, hnumber, isNaN_of_isFinite h, if_pos (lt_infinity h)]
  rfl

theorem larger_infinity (h : x.isFinite = true) : larger (-1 / 0) x = x := by
  have hnumber : (-1 / 0 : Float).isNaN = false := by decide +kernel
  rw [larger, hnumber, isNaN_of_isFinite h, if_pos (infinity_lt h)]
  rfl

end Calculator.Binary64
