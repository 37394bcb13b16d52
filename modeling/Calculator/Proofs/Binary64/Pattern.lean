import Calculator.Binary64.Basic
import Mathlib

/-!
# Finite doubles and their patterns

A finite double is known by its sign and its pattern below that of infinity: taking it apart and
putting it together again loses nothing, bit for bit, and its parts are those that the pattern says.
-/

namespace Calculator.Binary64

open Float.Model (Format UnpackedFloat)
open Float.Model.UnpackedFloat

section Fields

variable {b : BitVec Format.binary64.numBits}

theorem toNat_unpackExponent : (unpackExponent b).toNat = b.toNat / 2 ^ 52 % 2 ^ 11 := by
  simp [unpackExponent, BitVec.extractLsb, Nat.shiftRight_eq_div_pow]

theorem toBitVec_ofBitVec (s : BitVec 1) : (Sign.ofBitVec s).toBitVec = s := by
  revert s
  decide

theorem packComponents_of_fields {e : BitVec 11} {m : BitVec 52} (he : unpackExponent b = e)
    (hm : unpackMantissa b = m) :
    packComponents Format.binary64 (Sign.ofBitVec (unpackSign b)) e m = b := by
  rw [← he, ← hm, packComponents, toBitVec_ofBitVec]
  ext i hi
  simp only [unpackSign, unpackExponent, unpackMantissa, BitVec.extractLsb]
  grind

theorem log2_eq_of_bounds {m k : Nat} (hlow : 2 ^ k ≤ m) (hhigh : m < 2 ^ (k + 1)) :
    m.log2 = k := by
  have hne : m ≠ 0 := by have := Nat.two_pow_pos k; omega
  have h₁ := (Nat.le_log2 hne).2 hlow
  have h₂ := (Nat.log2_lt hne).2 hhigh
  omega

/-- A word whose exponent field is not full is rounded already, so packing changes no bit of it. -/
theorem pack_unpack (hfull : unpackExponent b ≠ -1#_) :
    pack Format.binary64 (unpack Format.binary64 b) = b := by
  have hm := (unpackMantissa b).isLt
  have he := (unpackExponent b).isLt
  have hbias : Format.binary64.exponentBias = 1023 := by decide
  have hwidth : Format.binary64.mantissaBits = 53 := by decide
  unfold unpack
  simp only [hfull, if_false]
  split
  · next hzero =>
    have hnone : (unpackExponent b).toNat = 0 := by simp [hzero]
    split
    · next hmantissa => exact packComponents_of_fields hzero hmantissa
    · next hmantissa =>
      -- A subnormal number has no implicit bit.
      have hlog : (unpackMantissa b).toNat.log2 < 52 := by
        refine (Nat.log2_lt fun h => hmantissa ?_).2 hm
        exact BitVec.eq_of_toNat_eq (by simpa using h)
      simp only [pack, hbias, hwidth, hnone]
      rw [if_neg (by decide), if_neg (by omega)]
      exact packComponents_of_fields hzero (by simp)
  · next hzero =>
    have hnonzero : (unpackExponent b).toNat ≠ 0 := fun h =>
      hzero (BitVec.eq_of_toNat_eq (by simpa using h))
    have hnotFull : (unpackExponent b).toNat ≠ 2047 := fun h =>
      hfull (BitVec.eq_of_toNat_eq (by simpa [BitVec.neg_one_eq_allOnes] using h))
    have himplicit : (1#1 ++ unpackMantissa b).toNat = 2 ^ 52 + (unpackMantissa b).toNat := by
      rw [BitVec.toNat_append, ← Nat.shiftLeft_add_eq_or_of_lt hm]
      simp [Nat.shiftLeft_eq]
    have hlog : (2 ^ 52 + (unpackMantissa b).toNat).log2 = 52 :=
      log2_eq_of_bounds (Nat.le_add_right _ _) (by simp only [Format.binary64] at hm; omega)
    have hbiased : ((unpackExponent b).toNat - ((1023 : Nat) + (52 : Nat)) +
      (1023 : Nat) + (52 : Nat) : Int).toNat =
        (unpackExponent b).toNat := by omega
    simp only [pack, hbias, hwidth, himplicit, hlog]
    rw [hbiased, if_neg (by simp only [Format.binary64] at he ⊢; omega), if_pos trivial]
    refine packComponents_of_fields (by simp) (BitVec.eq_of_toNat_eq ?_)
    simp only [BitVec.toNat_ofNat, Format.binary64] at hm ⊢
    omega

theorem isFinite_unpack : (unpack Format.binary64 b).isFinite = true ↔ unpackExponent b ≠ -1#_ := by
  by_cases hfull : unpackExponent b = -1#_
  · simp only [unpack, hfull, if_true, ne_eq, not_true_eq_false, iff_false]
    split <;> simp [UnpackedFloat.isFinite]
  · simp only [unpack, hfull, if_false, ne_eq, not_false_eq_true, iff_true]
    split
    · split <;> rfl
    · rfl

end Fields

theorem exponent_ne_full_iff (bits : UInt64) :
    @unpackExponent Format.binary64 bits.toBitVec ≠ -1#_ ↔
      bits.toNat % 2 ^ 63 < infinityPattern := by
  rw [Ne, ← BitVec.toNat_inj, toNat_unpackExponent]
  simp only [BitVec.neg_one_eq_allOnes, BitVec.toNat_allOnes, UInt64.toNat_toBitVec,
    infinityPattern]
  omega

theorem isFinite_iff (x : Float) : x.isFinite = true ↔ x.toBits.toNat % 2 ^ 63 < infinityPattern :=
  isFinite_unpack.trans (exponent_ne_full_iff x.toBits)

theorem ofBits_toBits {x : Float} (h : x.isFinite = true) : Float.ofBits x.toBits = x := by
  have hpack := pack_unpack (isFinite_unpack.1 h)
  obtain ⟨⟨bits, hvalid⟩⟩ := x
  simp only [Float.ofBits, Float.Model.ofBits, Float.Model.pack, Float.toBits] at hpack ⊢
  congr

theorem toBits_ofBits {bits : UInt64} (h : bits.toNat % 2 ^ 63 < infinityPattern) :
    (Float.ofBits bits).toBits = bits := by
  have hpack := pack_unpack ((exponent_ne_full_iff bits).2 h)
  simp only [Float.ofBits, Float.Model.ofBits, Float.Model.pack, Float.toBits, hpack]

variable {negative : Bool} {pattern : Nat}

theorem toNat_signedPattern (negative : Bool) (h : pattern < infinityPattern) :
    (UInt64.ofNat (if negative then 2 ^ 63 + pattern else pattern)).toNat =
      if negative then 2 ^ 63 + pattern else pattern := by
  rw [UInt64.toNat_ofNat']
  refine Nat.mod_eq_of_lt ?_
  simp only [infinityPattern] at h
  split <;> omega

theorem toBits_floatOfPattern (h : pattern < infinityPattern) :
    (floatOfPattern negative pattern).toBits.toNat = if negative then
      2 ^ 63 + pattern else pattern := by
  have hbits := toNat_signedPattern negative h
  rw [floatOfPattern, toBits_ofBits, hbits]
  rw [hbits]
  simp only [infinityPattern] at h ⊢
  split <;> omega

theorem isFinite_floatOfPattern (h : pattern < infinityPattern) :
    (floatOfPattern negative pattern).isFinite = true := by
  rw [isFinite_iff, toBits_floatOfPattern h]
  simp only [infinityPattern] at h ⊢
  split <;> omega

theorem ofFloat_floatOfPattern (h : pattern < infinityPattern) :
    ofFloat (floatOfPattern negative pattern) = ofPattern negative pattern := by
  simp only [ofFloat, toBits_floatOfPattern h]
  simp only [infinityPattern] at h
  cases negative with
  | true =>
    have hsign : 2 ^ 63 ≤ 2 ^ 63 + pattern := Nat.le_add_right _ _
    have hrest : (2 ^ 63 + pattern) % 2 ^ 63 = pattern := by omega
    simp only [if_true, hsign, hrest, decide_true]
  | false =>
    have hsign : ¬2 ^ 63 ≤ pattern := by omega
    have hrest : pattern % 2 ^ 63 = pattern := by omega
    simp only [Bool.false_eq_true, if_false, hsign, hrest, decide_false]

theorem exists_floatOfPattern {x : Float} (h : x.isFinite = true) :
    ∃ negative pattern, pattern < infinityPattern ∧ x = floatOfPattern negative pattern := by
  have hbits := x.toBits.toNat_lt
  refine ⟨2 ^ 63 ≤ x.toBits.toNat, x.toBits.toNat % 2 ^ 63, (isFinite_iff x).1 h, ?_⟩
  have hsigned : (if decide (2 ^ 63 ≤ x.toBits.toNat) = true then 2 ^ 63 + x.toBits.toNat % 2 ^ 63
      else x.toBits.toNat % 2 ^ 63) = x.toBits.toNat := by
    simp only [decide_eq_true_eq]
    split <;> omega
  rw [floatOfPattern, hsigned, UInt64.ofNat_toNat, ofBits_toBits h]

theorem ofPattern_eq_finite (negative : Bool) (h : pattern < infinityPattern) :
    ∃ mantissa exponent, ofPattern negative pattern = .finite negative mantissa exponent ∧
      patternOf mantissa exponent = pattern ∧ mantissa < 2 ^ 53 ∧ leastExponent ≤ exponent ∧
      exponent ≤ 971 ∧ (2 ^ 52 ≤ mantissa ∨ exponent = leastExponent) := by
  have hfield : pattern / 2 ^ 52 ≠ 2047 := by
    simp only [infinityPattern] at h
    omega
  simp only [infinityPattern] at h
  by_cases hsubnormal : pattern / 2 ^ 52 = 0
  · have hparts : ofPattern negative pattern = .finite negative (pattern % 2 ^ 52)
        leastExponent := by
      simp only [ofPattern]
      rw [if_neg hfield, if_pos hsubnormal]
    exact ⟨_, _, hparts, patternOf_ofPattern hparts, by omega, Int.le_refl _, by decide, .inr rfl⟩
  · have hparts : ofPattern negative pattern =
        .finite negative (2 ^ 52 + pattern % 2 ^ 52) (((pattern / 2 ^ 52 : Nat) : Int) - 1075) := by
      simp only [ofPattern]
      rw [if_neg hfield, if_neg hsubnormal]
    have hleast : leastExponent ≤ ((pattern / 2 ^ 52 : Nat) : Int) - 1075 := by
      rw [leastExponent]
      omega
    exact ⟨_, _, hparts, patternOf_ofPattern hparts,
      by omega, hleast, by omega, .inl (Nat.le_add_right _ _)⟩

theorem ofPattern_of_sign {negative' : Bool} {mantissa : Nat} {exponent : Int}
    (h : ofPattern negative pattern = .finite negative mantissa exponent) :
    ofPattern negative' pattern = .finite negative' mantissa exponent := by
  simp only [ofPattern] at h ⊢
  split at h
  · split at h <;> cases h
  next hfield =>
  rw [if_neg hfield]
  split at h
  · next hsubnormal =>
    cases h
    rw [if_pos hsubnormal]
  · next hnormal =>
    cases h
    rw [if_neg hnormal]

end Calculator.Binary64
