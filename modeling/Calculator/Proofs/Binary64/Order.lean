import Calculator.Proofs.Binary64.Operations
import Calculator.Proofs.Binary64.Spacing

/-!
# The orders on finite doubles

A finite double has the place of its pattern among the numbers of its sign, so its value is told
from a whole number: its pattern with the sign put before it, which is the same for both zeros.
Comparisons of doubles are comparisons of these numbers. The total order differs from them only for
the zeros, of which the negative one comes first.
-/

namespace Calculator.Binary64

open Float.Model (Format UnpackedFloat)
open Float.Model.UnpackedFloat

variable {x y : Float} {negative negative' : Bool} {mantissa mantissa' : Nat}
  {exponent exponent' : Int}

def isNegative (x : Float) : Bool :=
  2 ^ 63 ≤ x.toBits.toNat

def signedPattern (x : Float) : Int :=
  if isNegative x then -((x.toBits.toNat % 2 ^ 63 : Nat) : Int) else (x.toBits.toNat % 2 ^ 63 : Nat)

theorem orderKey_eq (x : Float) :
    orderKey x = if isNegative x then signedPattern x - 1 else signedPattern x := by
  have hbits := x.toBits.toNat_lt
  simp only [orderKey, signedPattern, isNegative, decide_eq_true_eq]
  split <;> omega

theorem toBits_inj (h : x.toBits = y.toBits) : x = y := by
  obtain ⟨⟨bits, hvalid⟩⟩ := x
  obtain ⟨⟨bits', hvalid'⟩⟩ := y
  cases h
  rfl

theorem orderKey_inj (h : orderKey x = orderKey y) : x = y := by
  apply toBits_inj
  apply UInt64.toNat_inj.1
  simp only [orderKey] at h
  split at h <;> split at h <;> omega

theorem eq_of_signedPattern_eq (h : signedPattern x = signedPattern y)
    (hzero : signedPattern x ≠ 0) : x = y := by
  apply toBits_inj
  apply UInt64.toNat_inj.1
  have hbits := x.toBits.toNat_lt
  have hbits' := y.toBits.toNat_lt
  simp only [signedPattern, isNegative, decide_eq_true_eq] at h hzero
  split at h <;> split at h <;> omega

theorem isNegative_of_ofFloat (h : ofFloat x = .finite negative mantissa exponent) :
    isNegative x = negative := by
  rw [isNegative]
  simp only [ofFloat, ofPattern] at h
  split at h
  · split at h <;> cases h
  split at h
  · cases h
    rfl
  · cases h
    rfl

theorem signedPattern_of_ofFloat (h : ofFloat x = .finite negative mantissa exponent) :
    signedPattern x = if negative then -(patternOf mantissa exponent : Int) else
      patternOf mantissa exponent := by
  rw [signedPattern, isNegative_of_ofFloat h, patternOf_ofPattern h]

structure AreParts (mantissa : Nat) (exponent : Int) :
    Prop extends IsNormalized mantissa exponent where
  greatest : exponent ≤ 971

theorem exists_areParts (h : x.isFinite = true) :
    ∃ negative mantissa exponent, ofFloat x = .finite negative mantissa exponent ∧
    AreParts mantissa exponent := by
  obtain ⟨negative, mantissa, exponent, hparts, hwidth, hleast, hgreatest, hnormal⟩ :=
    exists_parts h
  exact ⟨negative, mantissa, exponent, hparts, ⟨hwidth, hleast, hnormal⟩, hgreatest⟩

theorem patternOf_eq_zero_iff (h : AreParts mantissa exponent) :
    patternOf mantissa exponent = 0 ↔ mantissa = 0 := by
  obtain ⟨⟨-, hleast, hnormal⟩, -⟩ := h
  rw [patternOf]
  omega

theorem compare_parts (h : AreParts mantissa exponent) (h' : AreParts mantissa' exponent') :
    (compare exponent exponent').then (compare mantissa mantissa') =
      compare (patternOf mantissa exponent : Int) (patternOf mantissa' exponent') := by
  obtain ⟨⟨hwidth, hleast, hnormal⟩, -⟩ := h
  obtain ⟨⟨hwidth', hleast', hnormal'⟩, -⟩ := h'
  simp only [patternOf]
  rcases lt_trichotomy exponent exponent' with hlt | rfl | hgt
  · rw [Int.compare_eq_lt.2 hlt, Int.compare_eq_lt.2 (by omega)]
    rfl
  · rw [Int.compare_eq_eq.2 rfl, Ordering.eq_then]
    rcases lt_trichotomy mantissa mantissa' with hlt | rfl | hgt
    · rw [Nat.compare_eq_lt.2 hlt, Int.compare_eq_lt.2 (by omega)]
    · rw [Nat.compare_eq_eq.2 rfl, Int.compare_eq_eq.2 rfl]
    · rw [Nat.compare_eq_gt.2 hgt, Int.compare_eq_gt.2 (by omega)]
  · rw [Int.compare_eq_gt.2 hgt, Int.compare_eq_gt.2 (by omega)]
    rfl

theorem compare_neg (a b : Int) : compare (-a) (-b) = (compare a b).swap := by
  rw [Int.compare_swap]
  rcases lt_trichotomy a b with hlt | rfl | hgt
  · rw [Int.compare_eq_gt.2 hlt, Int.compare_eq_gt.2 (by omega)]
  · rw [Int.compare_eq_eq.2 rfl, Int.compare_eq_eq.2 rfl]
  · rw [Int.compare_eq_lt.2 hgt, Int.compare_eq_lt.2 (by omega)]

/-- The operations compare doubles as their signed patterns. -/
theorem compare_unpacked (hx : ofFloat x = .finite negative mantissa exponent)
    (hxp : AreParts mantissa exponent)
    (hy : ofFloat y = .finite negative' mantissa' exponent') (hyp : AreParts mantissa' exponent') :
    UnpackedFloat.compare (unpacked negative mantissa exponent)
    (unpacked negative' mantissa' exponent') =
      some (compare (signedPattern x) (signedPattern y)) := by
  have hzero := patternOf_eq_zero_iff hxp
  have hzero' := patternOf_eq_zero_iff hyp
  have hcompare := compare_parts hxp hyp
  rw [signedPattern_of_ofFloat hx, signedPattern_of_ofFloat hy, unpacked, unpacked]
  generalize patternOf mantissa exponent = pattern at *
  generalize patternOf mantissa' exponent' = pattern' at *
  by_cases hm : mantissa = 0
  · obtain rfl := hzero.2 hm
    rw [dif_pos hm]
    by_cases hm' : mantissa' = 0
    · obtain rfl := hzero'.2 hm'
      rw [dif_pos hm']
      cases negative <;> cases negative' <;> rfl
    · have hpos : 0 < pattern' := Nat.pos_of_ne_zero (hzero'.not.2 hm')
      rw [dif_neg hm']
      cases negative' with
      | false =>
        rw [Int.compare_eq_lt.2 (by cases negative <;> simpa using hpos)]
        rfl
      | true =>
        rw [Int.compare_eq_gt.2 (by cases negative <;> simpa using hpos)]
        rfl
  · have hpos : 0 < pattern := Nat.pos_of_ne_zero (hzero.not.2 hm)
    rw [dif_neg hm]
    by_cases hm' : mantissa' = 0
    · obtain rfl := hzero'.2 hm'
      rw [dif_pos hm']
      cases negative with
      | false =>
        rw [Int.compare_eq_gt.2 (by cases negative' <;> simpa using hpos)]
        rfl
      | true =>
        rw [Int.compare_eq_lt.2 (by cases negative' <;> simpa using hpos)]
        rfl
    · rw [dif_neg hm']
      cases negative <;> cases negative' <;> simp only [if_true, Bool.false_eq_true, if_false]
      · rw [← hcompare]
        rfl
      · rw [Int.compare_eq_gt.2 (by omega)]
        rfl
      · rw [Int.compare_eq_lt.2 (by omega)]
        rfl
      · rw [compare_neg, ← hcompare]
        rfl

theorem compare_unpack (hx : x.isFinite = true) (hy : y.isFinite = true) :
    UnpackedFloat.compare (unpack Format.binary64 x.toBits.toBitVec)
    (unpack Format.binary64 y.toBits.toBitVec) =
      some (compare (signedPattern x) (signedPattern y)) := by
  obtain ⟨negative, mantissa, exponent, hparts, hareParts⟩ := exists_areParts hx
  obtain ⟨negative', mantissa', exponent', hparts', hareParts'⟩ := exists_areParts hy
  rw [unpack_of_ofFloat hparts, unpack_of_ofFloat hparts']
  exact compare_unpacked hparts hareParts hparts' hareParts'

theorem lt_iff (hx : x.isFinite = true) (hy : y.isFinite = true) :
    x < y ↔ signedPattern x < signedPattern y := by
  rw [lt_iff_unpack, UnpackedFloat.lt, compare_unpack hx hy, beq_iff_eq,
    Option.some_inj, Int.compare_eq_lt]

theorem le_iff (hx : x.isFinite = true) (hy : y.isFinite = true) :
    x ≤ y ↔ signedPattern x ≤ signedPattern y := by
  rw [le_iff_unpack, UnpackedFloat.le, compare_unpack hx hy, Option.any_some, Int.isLE_compare]

theorem beq_iff (hx : x.isFinite = true) (hy : y.isFinite = true) :
    (x == y) = true ↔ signedPattern x = signedPattern y := by
  have hbeq : (x == y) = UnpackedFloat.beq (unpack Format.binary64 x.toBits.toBitVec)
      (unpack Format.binary64 y.toBits.toBitVec) := rfl
  rw [hbeq, UnpackedFloat.beq, compare_unpack hx hy, beq_iff_eq, Option.some_inj, Int.compare_eq_eq]

theorem mergeZero_eq (hx : x.isFinite = true) :
    mergeZero x = if signedPattern x = 0 then 0 else x := by
  have hzero : signedPattern 0 = 0 := by decide +kernel
  have hbeq : (x == 0) = true ↔ signedPattern x = 0 := by rw [beq_iff hx (by decide +kernel), hzero]
  rw [mergeZero]
  exact if_congr hbeq rfl rfl

theorem signedPattern_mergeZero (hx : x.isFinite = true) :
    signedPattern (mergeZero x) = signedPattern x := by
  rw [mergeZero_eq hx]
  split
  · next hzero =>
    rw [hzero]
    decide +kernel
  · rfl

/-- Whether a number comes before another one in the total order: it is less, or they are `-0.0` and
`0.0`. -/
def precedes (x y : Float) : Bool :=
  x < y || (x == y && isNegative x && !isNegative y)

theorem signedPattern_nonpos (h : isNegative x = true) : signedPattern x ≤ 0 := by
  rw [signedPattern, if_pos h]
  omega

theorem signedPattern_nonneg (h : isNegative x = false) : 0 ≤ signedPattern x := by
  rw [signedPattern, h, if_neg Bool.false_ne_true]
  omega

theorem precedes_iff (hx : x.isFinite = true) (hy : y.isFinite = true) :
    precedes x y = true ↔ orderKey x < orderKey y := by
  rw [precedes, orderKey_eq, orderKey_eq, Bool.or_eq_true, Bool.and_eq_true,
    Bool.and_eq_true, decide_eq_true_iff, lt_iff hx hy, beq_iff hx hy]
  cases hsign : isNegative x with
  | false =>
    have hnonneg := signedPattern_nonneg hsign
    cases hsign' : isNegative y with
    | false => simp
    | true =>
      have hnonpos := signedPattern_nonpos hsign'
      simp
      omega
  | true =>
    have hnonpos := signedPattern_nonpos hsign
    cases hsign' : isNegative y with
    | false =>
      have hnonneg := signedPattern_nonneg hsign'
      simp
      omega
    | true => simp

end Calculator.Binary64
