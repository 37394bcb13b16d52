import Calculator.Proofs.Binary64.Angle
import Calculator.Proofs.Binary64.Settled
import Calculator.Proofs.Trigonometry

/-!
# The poles of the tangent

The tangent is refused where the cosine is within the tolerance. The cosine of an angle in radians
is its distance from the nearest pole there, so an angle nearer than the tolerance is refused and
any other has a finite tangent. In degrees the odd multiples of a quarter are poles, but they are
rounded on the way to radians. The larger they are the farther they come to lie from the pole, and
from some five thousand quarters on this is more than the tolerance.
-/

namespace Calculator

namespace Binary64

variable {mantissa k : Nat} {exponent : Int}

/-- The positive poles of the tangent. -/
noncomputable def pole (k : Nat) : ℝ :=
  (2 * k + 1 : Nat) * (Real.pi / (2 : Nat))

theorem pole_eq (k : Nat) : pole k = (2 * k + 1) * (Real.pi / 2) := by
  rw [pole]
  push_cast
  rfl

theorem cast_mul_eq_pole (k : Nat) : ((2 * k + 1 : Int) : ℝ) * (Real.pi / 2) = pole k := by
  rw [pole_eq]
  push_cast
  rfl

theorem cos_pole (k : Nat) : Real.cos (pole k) = 0 := by
  rw [Real.cos_eq_zero_iff]
  exact ⟨k, by rw [pole_eq]; push_cast; ring⟩

theorem exists_pole_of_near {angle θ : ℝ} (hangle : 0 ≤ angle) (hcos : Real.cos θ = 0)
    (h : |angle - θ| ≤ 1 / 2) :
    ∃ k, θ = pole k := by
  obtain ⟨i, rfl⟩ := Real.cos_eq_zero_iff.1 hcos
  have hpi := Real.pi_gt_three
  have hnonneg : 0 ≤ i := by
    by_contra! hneg
    have hle : (i : ℝ) ≤ -1 := by exact_mod_cast Int.le_sub_one_of_lt hneg
    have hscaled := mul_le_mul_of_nonneg_right hle Real.pi_nonneg
    have hnear := (abs_le.1 h).2
    linarith
  lift i to ℕ using hnonneg
  exact ⟨i, by rw [pole_eq]; push_cast; ring⟩

theorem magnitude_nonneg (x : Float) : (0 : ℝ) ≤ magnitude x := by
  rw [Rat.cast_nonneg, magnitude, ← patternValue_zero]
  exact strictMono_patternValue.monotone (Nat.zero_le _)

theorem quarters_of_near (hwidth : mantissa < 2 ^ 53) (hgreat : exponent ≤ 971)
    (h : |(mantissa * 2 ^ exponent : ℝ) - pole k| ≤ 1 / 2) : (Angle.of mantissa exponent).quarters =
      2 * k + 1 := by
  have hrest := Angle.abs_offset_sub_le hwidth hgreat
  have hsmall := Angle.abs_offset_le mantissa hgreat
  have hpi := Real.pi_gt_three
  generalize (Angle.of mantissa exponent).offset = offset at hrest hsmall
  generalize (Angle.of mantissa exponent).quarters = quarters at hrest ⊢
  rw [pole_eq] at h
  rw [abs_le] at h hrest hsmall
  by_contra hother
  have happart : (1 : ℝ) ≤ |(quarters : ℝ) - (2 * k + 1)| := by
    exact_mod_cast Int.one_le_abs (sub_ne_zero.2 hother)
  rcases le_abs.1 happart with hgreater | hless
  · have hscaled := mul_le_mul_of_nonneg_right hgreater (by positivity : 0 ≤ Real.pi / 2)
    linarith
  · have hscaled := mul_le_mul_of_nonneg_right hless (by positivity : 0 ≤ Real.pi / 2)
    linarith

theorem cos_le_of_near (hwidth : mantissa < 2 ^ 53) (hgreat : exponent ≤ 971)
    (h : |(mantissa * 2 ^ exponent : ℝ) - pole k| ≤ 1 / 2) :
    ((Angle.of mantissa exponent).cos.natAbs : ℝ) / (Angle.of mantissa exponent).unit ≤
      |(mantissa * 2 ^ exponent : ℝ) - pole k| + 1 / 2 ^ 200 := by
  have hquarters := quarters_of_near hwidth hgreat h
  have hrest := Angle.abs_offset_sub_le hwidth hgreat
  have hcos := (Angle.sinRest_bounds (Angle.abs_offset_le mantissa hgreat)).2
  rw [Angle.natAbs_cos, if_neg (by omega)]
  rw [hquarters, cast_mul_eq_pole] at hrest
  have htriangle := abs_sub_abs_le_abs_sub (Angle.of mantissa exponent).offset
    (mantissa * 2 ^ exponent - pole k)
  linarith

theorem le_mul_of_far {t : ℝ} (hlow : 1 / 10 ^ 12 - 1 / 2 ^ 200 ≤ t) (hhigh : t ≤ 4 / 5) :
    1 / 10 ^ 12 - 1 / 10 ^ 30 ≤ t * (1 - t ^ 2 / 6 - 1 / 2 ^ 200) := by
  have hnonneg : 0 ≤ t := by norm_num at hlow; linarith
  rcases le_or_gt t (1 / 10 ^ 10) with hsmall | hlarge
  · have hsquare : t ^ 2 ≤ (1 / 10 ^ 10) ^ 2 := by gcongr
    have hloss : t * (t ^ 2 / 6 + 1 / 2 ^ 200) ≤ 1 / 10 ^ 10 *
      ((1 / 10 ^ 10) ^ 2 / 6 + 1 / 2 ^ 200) := by gcongr
    norm_num at hloss hlow ⊢
    linarith
  · have hsquare : t ^ 2 ≤ (4 / 5) ^ 2 := by gcongr
    have hhalf : 1 / 10 ^ 10 * (1 / 2) ≤ t * (1 - t ^ 2 / 6 - 1 / 2 ^ 200) := by
      apply mul_le_mul hlarge.le _ (by norm_num) hnonneg
      norm_num at hsquare ⊢
      linarith
    norm_num at hhalf ⊢
    linarith

theorem le_cos_of_far (hwidth : mantissa < 2 ^ 53) (hgreat : exponent ≤ 971)
    (h : ∀ k, 1 / 10 ^ 12 ≤ |(mantissa * 2 ^ exponent : ℝ) - pole k|) :
    1 / 10 ^ 12 - 1 / 10 ^ 30 ≤
      ((Angle.of mantissa exponent).cos.natAbs : ℝ) / (Angle.of mantissa exponent).unit := by
  have hsmall := Angle.abs_offset_le mantissa hgreat
  rw [Angle.natAbs_cos]
  split
  · have hcos := (Angle.cosRest_bounds hsmall).1
    exact le_trans (by norm_num) hcos
  · next hodd =>
    obtain ⟨k, hk⟩ : ∃ k : Nat, (Angle.of mantissa exponent).quarters = 2 * k + 1 := by
      have hnonneg := Angle.quarters_nonneg mantissa hgreat
      exact ⟨((Angle.of mantissa exponent).quarters / 2).toNat, by omega⟩
    have hrest := Angle.abs_offset_sub_le hwidth hgreat
    rw [hk, cast_mul_eq_pole] at hrest
    have htriangle := abs_sub_abs_le_abs_sub (mantissa * 2 ^ exponent - pole k)
      (Angle.of mantissa exponent).offset
    rw [abs_sub_comm (mantissa * 2 ^ exponent - pole k)] at htriangle
    have hfar := le_mul_of_far (by linarith [h k]) hsmall
    rw [sq_abs] at hfar
    exact hfar.trans (Angle.sinRest_bounds hsmall).1

theorem unit_ne_zero (a : Angle) : a.unit ≠ 0 :=
  (Nat.two_pow_pos _).ne'

theorem cast_unit_pos (a : Angle) : (0 : ℝ) < a.unit := by
  exact_mod_cast Nat.pos_of_ne_zero (unit_ne_zero a)

theorem natAbs_sin_le (mantissa : Nat) (hgreat : exponent ≤ 971) :
    (Angle.of mantissa exponent).sin.natAbs ≤ (Angle.of mantissa exponent).unit := by
  have hsmall := Angle.abs_offset_le mantissa hgreat
  have hunit := cast_unit_pos (Angle.of mantissa exponent)
  have hle :
      ((Angle.of mantissa exponent).sin.natAbs : ℝ) / (Angle.of mantissa exponent).unit ≤ 1 := by
    rw [Angle.natAbs_sin]
    split
    · linarith [(Angle.sinRest_bounds hsmall).2]
    · exact (Angle.cosRest_bounds hsmall).2
  rw [div_le_one hunit] at hle
  exact_mod_cast hle

end Binary64

namespace TrigOperation

open Binary64

variable {x : Float} {useRadians : Bool} {num den : Nat}

def tolerancePattern : Nat :=
  patternOf 4951760157141521 (-92)

theorem ofFloat_poleTolerance : ofFloat poleTolerance = .finite false 4951760157141521 (-92) := by
  decide +kernel

theorem patternValue_tolerance : patternValue tolerancePattern = 4951760157141521 / 2 ^ 92 := by
  rw [tolerancePattern, patternValue_patternOf (by decide) (by decide) (.inl (by decide))]
  norm_num

theorem patternValue_below_tolerance :
    patternValue (tolerancePattern - 1) = 4951760157141520 / 2 ^ 92 := by
  have hbelow : tolerancePattern - 1 = patternOf 4951760157141520 (-92) := by decide
  rw [hbelow, patternValue_patternOf (by decide) (by decide) (.inl (by decide))]
  norm_num

theorem abs_lt_poleTolerance_iff {pattern : Nat} (negative : Bool) (h : pattern < infinityPattern) :
    (floatOfPattern negative pattern).abs < poleTolerance ↔ pattern < tolerancePattern := by
  rw [abs_floatOfPattern negative h,
    lt_iff (isFinite_floatOfPattern h) (isFinite_of_ofFloat ofFloat_poleTolerance),
    signedPattern_floatOfPattern false h, signedPattern_of_ofFloat ofFloat_poleTolerance]
  exact Int.ofNat_lt

theorem settle_lt_poleTolerance (negative : Bool) (hden : den ≠ 0) (h : num ≤ den)
    (hsmall : (num / den : ℝ) ≤ 4951760157141520 / 2 ^ 92) : (settle negative num den).abs <
      poleTolerance := by
  obtain ⟨pattern, hfinite, hsettle, horder⟩ := exists_settle negative hden h
  have hbelow : pattern ≤ tolerancePattern - 1 := by
    refine (horder _ (4951760157141520 * 2 ^ 100) ?_).1 ?_
    · rw [patternValue_below_tolerance, keptPlaces]
      norm_num
    · rw [patternValue_below_tolerance, ← Rat.cast_le (K := ℝ)]
      push_cast
      exact hsmall
  rw [hsettle, abs_lt_poleTolerance_iff negative hfinite]
  exact Nat.lt_of_le_pred (by decide) hbelow

theorem not_settle_lt_poleTolerance (negative : Bool) (hden : den ≠ 0) (h : num ≤ den)
    (hlarge : 4951760157141521 / 2 ^ 92 ≤ (num / den : ℝ)) : ¬(settle negative num den).abs <
      poleTolerance := by
  obtain ⟨pattern, hfinite, hsettle, horder⟩ := exists_settle negative hden h
  have habove : tolerancePattern ≤ pattern := by
    refine (horder _ (4951760157141521 * 2 ^ 100) ?_).2 ?_
    · rw [patternValue_tolerance, keptPlaces]
      norm_num
    · rw [patternValue_tolerance, ← Rat.cast_le (K := ℝ)]
      push_cast
      exact hlarge
  rw [hsettle, abs_lt_poleTolerance_iff negative hfinite]
  exact Nat.not_lt.2 habove

theorem cos_lt_poleTolerance {k : Nat} (h : x.isFinite = true)
    (hnear : |(magnitude x : ℝ) - pole k| ≤ (1 - 1 / 2 ^ 50) / 10 ^ 12) :
      (Binary64.cos x).abs < poleTolerance := by
  obtain ⟨negative, mantissa, exponent, hparts, hareParts⟩ := exists_areParts h
  rw [magnitude_of_ofFloat hparts hareParts] at hnear
  push_cast at hnear
  have hcos := cos_le_of_near hareParts.width hareParts.greatest (hnear.trans (by norm_num))
  simp only [Binary64.cos, hparts]
  apply settle_lt_poleTolerance _ (unit_ne_zero _) (Nat.min_le_right _ _)
  calc ((min (Angle.of mantissa exponent).cos.natAbs (Angle.of mantissa exponent).unit : Nat) : ℝ) /
        (Angle.of mantissa exponent).unit
      ≤ (Angle.of mantissa exponent).cos.natAbs / (Angle.of mantissa exponent).unit := by
        gcongr
        exact Nat.min_le_left _ _
    _ ≤ (1 - 1 / 2 ^ 50) / 10 ^ 12 + 1 / 2 ^ 200 := hcos.trans (by gcongr)
    _ ≤ 4951760157141520 / 2 ^ 92 := by norm_num

theorem not_cos_lt_poleTolerance (h : x.isFinite = true)
    (hfar : ∀ k, 1 / 10 ^ 12 ≤ |(magnitude x : ℝ) - pole k|) :
      ¬(Binary64.cos x).abs < poleTolerance := by
  obtain ⟨negative, mantissa, exponent, hparts, hareParts⟩ := exists_areParts h
  rw [magnitude_of_ofFloat hparts hareParts] at hfar
  push_cast at hfar
  have hcos := le_cos_of_far hareParts.width hareParts.greatest hfar
  have hunit := cast_unit_pos (Angle.of mantissa exponent)
  simp only [Binary64.cos, hparts]
  apply not_settle_lt_poleTolerance _ (unit_ne_zero _) (Nat.min_le_right _ _)
  rw [Nat.cast_min, ← min_div_div_right hunit.le, div_self hunit.ne']
  exact le_min (le_trans (by norm_num) hcos) (by norm_num)

theorem isFinite_tan (h : x.isFinite = true)
    (hfar : ∀ k, 1 / 10 ^ 12 ≤ |(magnitude x : ℝ) - pole k|) :
    (Binary64.tan x).isFinite = true := by
  obtain ⟨negative, mantissa, exponent, hparts, hareParts⟩ := exists_areParts h
  rw [magnitude_of_ofFloat hparts hareParts] at hfar
  push_cast at hfar
  have hcos := le_cos_of_far hareParts.width hareParts.greatest hfar
  have hunit := cast_unit_pos (Angle.of mantissa exponent)
  have hsin := natAbs_sin_le mantissa hareParts.greatest
  -- The sine is at most one and the cosine is not tiny.
  have hscaled :
      (Angle.of mantissa exponent).unit ≤ (Angle.of mantissa exponent).cos.natAbs * 2 ^ 100 := by
    rw [le_div_iff₀ hunit] at hcos
    have hfactor : (1 : ℝ) ≤ (1 / 10 ^ 12 - 1 / 10 ^ 30) * 2 ^ 100 := by norm_num
    have hreal : ((Angle.of mantissa exponent).unit : ℝ) ≤
        (Angle.of mantissa exponent).cos.natAbs * 2 ^ 100 := by
      calc ((Angle.of mantissa exponent).unit : ℝ)
          ≤ (1 / 10 ^ 12 - 1 / 10 ^ 30) * 2 ^ 100 * (Angle.of mantissa exponent).unit :=
            le_mul_of_one_le_left hunit.le hfactor
        _ = (1 / 10 ^ 12 - 1 / 10 ^ 30) * (Angle.of mantissa exponent).unit * 2 ^ 100 := by ring
        _ ≤ (Angle.of mantissa exponent).cos.natAbs * 2 ^ 100 := by gcongr
    exact_mod_cast hreal
  have hne : (Angle.of mantissa exponent).cos.natAbs ≠ 0 := by
    intro hzero
    rw [hzero, Nat.zero_mul] at hscaled
    exact unit_ne_zero _ (Nat.le_zero.1 hscaled)
  simp only [Binary64.tan, hparts]
  split
  · exact h
  · exact (isModerate_settle hne (Nat.le_refl 100) (hsin.trans hscaled)).isFinite

theorem evaluate_tan_of_near {k : Nat} (h : x.isFinite = true)
    (hnear : |(magnitude (toRadians useRadians x) : ℝ) - pole k| ≤ (1 - 1 / 2 ^ 50) / 10 ^ 12) :
    evaluate .tan x useRadians = .error (.domain (.tanPole x useRadians)) :=
  if_pos (cos_lt_poleTolerance (isFinite_toRadians h) hnear)

theorem evaluate_tan_eq_ok (hcos : ¬(Binary64.cos (toRadians useRadians x)).abs < poleTolerance)
    (hfinite : (Binary64.tan (toRadians useRadians x)).isFinite = true) :
    evaluate .tan x useRadians = .ok (Binary64.tan (toRadians useRadians x)) := by
  have hvalue : finite (Binary64.tan (toRadians useRadians x)) "tan" =
    .ok (Binary64.tan (toRadians useRadians x)) :=
    if_pos hfinite
  exact (if_neg hcos).trans hvalue

theorem evaluate_tan_of_far (h : x.isFinite = true)
    (hfar : ∀ k, 1 / 10 ^ 12 ≤ |(magnitude (toRadians useRadians x) : ℝ) - pole k|) :
    evaluate .tan x useRadians = .ok (Binary64.tan (toRadians useRadians x)) :=
  have hfinite := isFinite_toRadians h
  evaluate_tan_eq_ok (not_cos_lt_poleTolerance hfinite hfar) (isFinite_tan hfinite hfar)

def quartersNum (k : Nat) : Nat :=
  90 * k * 5030569068109113

theorem magnitude_toRadians {k : Nat} (h : x.isFinite = true) (hk : k ≤ 5615)
    (hx : magnitude x = 90 * k) :
    magnitude (toRadians false x) = patternValue (patternOfRatio (quartersNum k) (2 ^ 58)) := by
  have hparts := ofFloat_radiansPerDegree
  have hfactor : magnitude radiansPerDegree = 5030569068109113 * 2 ^ (-58 : Int) := by
    rw [magnitude_of_ofFloat hparts ⟨⟨by decide, by decide, .inl (by decide)⟩, by decide⟩]
    norm_num
  have hvalue :
      (quartersNum k / (2 ^ 58 : Nat) : ℚ) = magnitude x * magnitude radiansPerDegree := by
    rw [hx, hfactor, quartersNum]
    push_cast
    norm_num
    ring
  have hsize : quartersNum k ≤ 2 ^ 58 * 2 ^ 14 := by
    rw [quartersNum]
    omega
  have hfinite : patternOfRatio (quartersNum k) (2 ^ 58) < infinityPattern := by
    have hpattern := patternOfRatio_le (by decide) hsize
    rw [infinityPattern]
    omega
  have hmul := mul_eq_floatOfRatio h (isFinite_of_ofFloat hparts) (by decide) hvalue
  have hradians : toRadians false x = x * radiansPerDegree := rfl
  rw [hradians, hmul, floatOfRatio, Nat.min_eq_left hfinite.le, magnitude_floatOfPattern _ hfinite]

theorem abs_quartersNum_sub_le (k : Nat) :
    |(quartersNum k / 2 ^ 58 : ℝ) - k * (Real.pi / 2)| ≤ k * (1 / 10 ^ 16) := by
  have hlow := Real.pi_gt_d20
  have hhigh := Real.pi_lt_d20
  have hscaled : (quartersNum k / 2 ^ 58 : ℝ) - k * (Real.pi / 2) =
      k * (90 * 5030569068109113 / 2 ^ 58 - Real.pi / 2) := by
    rw [quartersNum]
    push_cast
    ring
  rw [hscaled, abs_mul, abs_of_nonneg (Nat.cast_nonneg k : (0 : ℝ) ≤ k)]
  refine mul_le_mul_of_nonneg_left (abs_le.2 ⟨?_, ?_⟩) (Nat.cast_nonneg k)
  · norm_num at hlow hhigh ⊢
    linarith
  · norm_num at hlow hhigh ⊢
    linarith

theorem quartersNum_ne_zero {k : Nat} (hpos : 0 < k) : quartersNum k ≠ 0 := by
  rw [quartersNum]
  omega

theorem exponentOfRatio_quartersNum {k : Nat} (hpos : 0 < k) (hk : k ≤ 5215) :
    exponentOfRatio (quartersNum k) (2 ^ 58) ≤ -40 := by
  have hnum := quartersNum_ne_zero hpos
  rcases (exponentOfRatio_bounds hnum (by decide : 2 ^ 58 ≠ 0)).2.2 with hleast | hlow
  · rw [hleast]
    decide
  · have hsize : (quartersNum k / (2 ^ 58 : Nat) : ℚ) < 2 ^ (13 : Int) := by
      have hnat : quartersNum k < 2 ^ 13 * 2 ^ 58 := by
        rw [quartersNum]
        omega
      rw [div_lt_iff₀ (by norm_num)]
      exact_mod_cast hnat
    have hpow : (2 : ℚ) ^ (52 + exponentOfRatio (quartersNum k) (2 ^ 58)) < 2 ^ (13 : Int) := by
      rw [zpow_add₀ two_ne_zero]
      exact hlow.trans_lt hsize
    have hlt := (zpow_lt_zpow_iff_right₀ one_lt_two).1 hpow
    omega

theorem abs_rounded_sub_le {k : Nat} (hpos : 0 < k) (hk : k ≤ 5215) :
    |(patternValue (patternOfRatio (quartersNum k) (2 ^ 58)) : ℝ) - k * (Real.pi / 2)| ≤
      (1 - 1 / 2 ^ 50) / 10 ^ 12 := by
  have hnum := quartersNum_ne_zero hpos
  have hrounded : |patternValue (patternOfRatio (quartersNum k) (2 ^ 58)) -
    quartersNum k / 2 ^ 58| ≤
      1 / 2 * 2 ^ (-40 : Int) := by
    have hhalf := abs_patternValue_sub_le_half_unit hnum (by decide : 2 ^ 58 ≠ 0)
    rw [Nat.cast_pow, Nat.cast_ofNat] at hhalf
    refine hhalf.trans ?_
    gcongr
    · exact one_le_two
    · exact exponentOfRatio_quartersNum hpos hk
  have hreal : |(patternValue (patternOfRatio (quartersNum k) (2 ^ 58)) : ℝ) -
    quartersNum k / 2 ^ 58| ≤
      1 / 2 * 2 ^ (-40 : Int) := by
    have hcast := (Rat.cast_le (K := ℝ)).2 hrounded
    simpa only [Rat.cast_abs, Rat.cast_sub, Rat.cast_div, Rat.cast_natCast,
      Rat.cast_mul, Rat.cast_zpow, Rat.cast_pow, Rat.cast_one, Rat.cast_ofNat] using hcast
  have hk' : (k : ℝ) ≤ 5215 := by exact_mod_cast hk
  calc |(patternValue (patternOfRatio (quartersNum k) (2 ^ 58)) : ℝ) - k * (Real.pi / 2)|
      ≤ |(patternValue (patternOfRatio (quartersNum k) (2 ^ 58)) : ℝ) - quartersNum k / 2 ^ 58| +
          |(quartersNum k / 2 ^ 58 : ℝ) - k * (Real.pi / 2)| := abs_sub_le _ _ _
    _ ≤ 1 / 2 * 2 ^ (-40 : Int) + 5215 * (1 / 10 ^ 16) :=
        add_le_add hreal ((abs_quartersNum_sub_le k).trans (by gcongr))
    _ ≤ (1 - 1 / 2 ^ 50) / 10 ^ 12 := by norm_num

/-- Above it the rounding to places of `2 ^ -39` alone may be almost the tolerance, which is some
0.5497 of such a place. -/
theorem rounded_multiples :
    ∀ i < 200, let k := 5217 + 2 * i
    let r := roundDiv (quartersNum k) (2 ^ 19)
    patternOfRatio (quartersNum k) (2 ^ 58) = patternOf r (-39) ∧ 2 ^ 52 ≤ r ∧ r < 2 ^ 53 ∧
      r * 10 ^ 20 ≤ k * 314159265358979323846 * 2 ^ 38 + 54970000000000000000 ∧
      k * 314159265358979323847 * 2 ^ 38 ≤ r * 10 ^ 20 + 54970000000000000000 := by
  decide +kernel

theorem abs_rounded_sub_le_of_large {k : Nat} (hodd : k % 2 = 1) (hlow : 5215 < k) (hk : k ≤ 5615) :
    |(patternValue (patternOfRatio (quartersNum k) (2 ^ 58)) : ℝ) - k * (Real.pi / 2)| ≤
      (1 - 1 / 2 ^ 50) / 10 ^ 12 := by
  obtain ⟨i, hi, rfl⟩ : ∃ i, i < 200 ∧ k = 5217 + 2 * i := ⟨(k - 5217) / 2, by omega, by omega⟩
  obtain ⟨hpattern, hnormal, hwidth, hhigh, hlow⟩ := rounded_multiples i hi
  rw [hpattern, patternValue_patternOf hwidth.le (by decide) (.inl hnormal)]
  generalize roundDiv (quartersNum (5217 + 2 * i)) (2 ^ 19) = r at hhigh hlow
  generalize 5217 + 2 * i = k at hk hhigh hlow ⊢
  have hhigh' : (r : ℝ) * 10 ^ 20 ≤ k * 314159265358979323846 * 2 ^ 38 + 54970000000000000000 := by
    exact_mod_cast hhigh
  have hlow' : (k : ℝ) * 314159265358979323847 * 2 ^ 38 ≤ r * 10 ^ 20 + 54970000000000000000 := by
    exact_mod_cast hlow
  have hpiLow := mul_le_mul_of_nonneg_left Real.pi_gt_d20.le (Nat.cast_nonneg (α := ℝ) k)
  have hpiHigh := mul_le_mul_of_nonneg_left Real.pi_lt_d20.le (Nat.cast_nonneg (α := ℝ) k)
  push_cast
  rw [abs_le]
  norm_num at hhigh' hlow' hpiLow hpiHigh ⊢
  constructor <;> linarith

theorem evaluate_tan_of_quarters {k : Nat} (h : x.isFinite = true) (hodd : k % 2 = 1)
    (hk : k ≤ 5615)
    (hx : magnitude x = 90 * k) : evaluate .tan x false = .error (.domain (.tanPole x false)) := by
  have hclose : |(patternValue (patternOfRatio (quartersNum k) (2 ^ 58)) : ℝ) - k * (Real.pi / 2)| ≤
      (1 - 1 / 2 ^ 50) / 10 ^ 12 := by
    rcases le_or_gt k 5215 with hsmall | hlarge
    · exact abs_rounded_sub_le (by omega) hsmall
    · exact abs_rounded_sub_le_of_large hodd hlarge hk
  have hpole : (k : ℝ) * (Real.pi / 2) = pole (k / 2) := by
    have hhalf : (k : ℝ) = 2 * (k / 2 : Nat) + 1 := by
      exact_mod_cast (by omega : k = 2 * (k / 2) + 1)
    rw [pole_eq, ← hhalf]
  rw [hpole, ← magnitude_toRadians h hk hx] at hclose
  exact evaluate_tan_of_near h hclose

/-- The tangent of a number is refused beside a zero of the cosine and finite away from all of them.
The odd multiples of a quarter in degrees are refused as far as they are rounded to numbers beside a
zero. -/
theorem evaluate_tan_beside_poles (x : Float) (useRadians : Bool) (h : x.isFinite = true) :
    ((∃ θ, Real.cos θ = 0 ∧
        |(magnitude (toRadians useRadians x) : ℝ) - θ| ≤ (1 - 1 / 2 ^ 50) / 10 ^ 12) →
      evaluate .tan x useRadians = .error (.domain (.tanPole x useRadians))) ∧
    ((∀ θ, Real.cos θ = 0 → 1 / 10 ^ 12 ≤ |(magnitude (toRadians useRadians x) : ℝ) - θ|) →
      ∃ y, evaluate .tan x useRadians = .ok y ∧ y.isFinite = true) ∧
    (∀ k : Nat, k % 2 = 1 → k ≤ 5615 → magnitude x = 90 * k →
      evaluate .tan x false = .error (.domain (.tanPole x false))) := by
  refine ⟨?_, ?_, ?_⟩
  · rintro ⟨θ, hcos, hnear⟩
    obtain ⟨k, rfl⟩ := exists_pole_of_near (magnitude_nonneg _) hcos (hnear.trans (by norm_num))
    exact evaluate_tan_of_near h hnear
  · intro hfar
    have hpoles := fun k => hfar (pole k) (cos_pole k)
    exact ⟨_, evaluate_tan_of_far h hpoles, isFinite_tan (isFinite_toRadians h) hpoles⟩
  · intro k hodd hk hx
    exact evaluate_tan_of_quarters h hodd hk hx

theorem evaluate_tan_quarter : (90 : Float).isFinite = true ∧ (0 : Float).isFinite = true ∧
    evaluate .tan 90 false = .error (.domain (.tanPole 90 false)) ∧
    ∃ y, evaluate .tan 0 true = .ok y ∧ y.isFinite = true := by
  have hninety : (90 : Float).isFinite = true := by decide +kernel
  have hzero : (0 : Float).isFinite = true := by decide +kernel
  refine ⟨hninety, hzero, (evaluate_tan_beside_poles 90 false hninety).2.2 1 rfl (by decide) ?_,
    (evaluate_tan_beside_poles 0 true hzero).2.1 fun θ hcos => ?_⟩
  · have hparts : ofFloat 90 = .finite false (90 * 2 ^ 46) (-46) := by decide +kernel
    rw [magnitude_of_ofFloat hparts ⟨⟨by decide, by decide, .inl (by decide)⟩, by decide⟩]
    norm_num
  · have hparts : ofFloat (toRadians true 0) = .finite false 0 leastExponent := by decide +kernel
    rw [magnitude_of_ofFloat hparts ⟨⟨by decide, le_rfl, .inr rfl⟩, by decide⟩,
      Nat.cast_zero, zero_mul, Rat.cast_zero, zero_sub, abs_neg]
    by_contra! hnear
    have hpi := Real.pi_gt_three
    obtain ⟨hlow, hhigh⟩ := abs_lt.1 hnear
    exact (Real.cos_pos_of_mem_Ioo ⟨by linarith, by linarith⟩).ne' hcos

/-- The next odd multiple is rounded away from its pole, and its tangent is some `10 ^ 12`. -/
theorem evaluate_tan_at_pole : magnitude 505530 = 90 * 5617 ∧ ∃ y,
    evaluate .tan 505530 false = .ok y ∧
    ofFloat y = .finite false 8167738215869139 (-13) := by
  refine ⟨?_, _, evaluate_tan_eq_ok (by decide +kernel) (by decide +kernel), by decide +kernel⟩
  have hparts : ofFloat 505530 = .finite false (505530 * 2 ^ 34) (-34) := by decide +kernel
  rw [magnitude_of_ofFloat hparts ⟨⟨by decide, by decide, .inl (by decide)⟩, by decide⟩]
  norm_num

end TrigOperation

end Calculator
