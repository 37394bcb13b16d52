import Calculator.Proofs.Binary64.HalfPi
import Calculator.Proofs.Binary64.Nearest
import Calculator.Binary64.Circular
import Mathlib.Analysis.Real.Pi.Bounds

/-!
# Angles without their quarters

An angle keeps its distance from the next multiple of a quarter of the circle, to so many places
that no double is large enough to lose it. Where the multiple is odd, the cosine is that distance in
size, up to its cube; where it is even, the cosine is more than a half.
-/

namespace Calculator.Binary64

variable {mantissa : Nat} {exponent : Int} {a : Angle}

namespace Angle

noncomputable def offset (a : Angle) : ℝ :=
  a.rest / (2 ^ a.places : Nat)

theorem offset_eq (a : Angle) : a.offset = a.rest / 2 ^ a.places := by
  rw [offset, Nat.cast_pow, Nat.cast_ofNat]

def placesOf (exponent : Int) : Nat :=
  workPlaces + (exponent + 53).toNat

def fixed (mantissa : Nat) (exponent : Int) : Int :=
  ((ratio mantissa exponent).1 * 2 ^ placesOf exponent / (ratio mantissa exponent).2 : Nat)

def nearestQuarter (fixed quarter : Int) : Int :=
  (2 * fixed + quarter) / (2 * quarter)

def taken (mantissa : Nat) (exponent : Int) : Int :=
  nearestQuarter (fixed mantissa exponent) (Series.halfPi (placesOf exponent))

def left (mantissa : Nat) (exponent : Int) : Int :=
  fixed mantissa exponent - taken mantissa exponent * Series.halfPi (placesOf exponent)

theorem of_eq (mantissa : Nat) (exponent : Int) : Angle.of mantissa exponent =
    if taken mantissa exponent = 0 then ⟨0, (ratio mantissa exponent).1, (-exponent).toNat⟩
    else ⟨taken mantissa exponent, left mantissa exponent, placesOf exponent⟩ := rfl

theorem cast_ratio (mantissa : Nat) (exponent : Int) :
    ((ratio mantissa exponent).1 : ℝ) / (ratio mantissa exponent).2 = mantissa * 2 ^ exponent := by
  have hvalue := congrArg (Rat.cast : ℚ → ℝ) (ratio_value mantissa exponent)
  push_cast at hvalue
  exact hvalue

theorem fixed_bounds (mantissa : Nat) (exponent : Int) :
    (fixed mantissa exponent : ℝ) ≤ 2 ^ placesOf exponent * (mantissa * 2 ^ exponent : ℝ) ∧
    2 ^ placesOf exponent * (mantissa * 2 ^ exponent : ℝ) - 1 < fixed mantissa exponent := by
  have hden := Nat.pos_of_ne_zero (ratio_den_ne_zero mantissa exponent)
  have hrounded := Series.intCast_ediv_bounds
    (((ratio mantissa exponent).1 * 2 ^ placesOf exponent : ℕ) : ℤ) hden
  have hquotient : ((((ratio mantissa exponent).1 * 2 ^ placesOf exponent : ℕ) : ℤ) : ℝ) /
    (ratio mantissa exponent).2 =
      2 ^ placesOf exponent * (mantissa * 2 ^ exponent) := by
    rw [← cast_ratio]
    push_cast
    ring
  rw [hquotient] at hrounded
  have hvalue : fixed mantissa exponent =
      (((ratio mantissa exponent).1 * 2 ^ placesOf exponent : ℕ) : ℤ) /
        ((ratio mantissa exponent).2 : ℤ) :=
    Int.natCast_div _ _
  rw [hvalue]
  exact hrounded

theorem nearestQuarter_bounds (fixed : Int) {quarter : Int} (h : 0 < quarter) :
    -quarter ≤ 2 * (fixed - nearestQuarter fixed quarter * quarter) ∧
      2 * (fixed - nearestQuarter fixed quarter * quarter) < quarter := by
  have hlow := Int.ediv_mul_le (2 * fixed + quarter) (b := 2 * quarter) (by omega)
  have hhigh := Int.lt_ediv_add_one_mul_self (2 * fixed + quarter) (b := 2 * quarter) (by omega)
  rw [← nearestQuarter] at hlow hhigh
  constructor <;> linarith

theorem quarter_bounds (hgreat : exponent ≤ 971) :
    |(Series.halfPi (placesOf exponent) : ℝ) - 2 ^ placesOf exponent * (Real.pi / 2)| ≤ 2 ^ 15 := by
  have hplaces : placesOf exponent ≤ 1344 := by
    rw [placesOf, workPlaces]
    omega
  have hcast : (placesOf exponent : ℝ) ≤ 1344 := by exact_mod_cast hplaces
  calc |(Series.halfPi (placesOf exponent) : ℝ) - 2 ^ placesOf exponent * (Real.pi / 2)|
      ≤ 16 * placesOf exponent + 24 := Series.abs_halfPi_sub_le _
    _ ≤ 2 ^ 15 := by linarith

theorem two_pow_le_places (exponent : Int) : (2 : ℝ) ^ 30 ≤ 2 ^ placesOf exponent := by
  apply pow_le_pow_right₀ one_le_two
  rw [placesOf, workPlaces]
  omega

theorem unit_lt_quarter (hgreat : exponent ≤ 971) :
    (2 : ℝ) ^ placesOf exponent < Series.halfPi (placesOf exponent) := by
  have hquarter := (abs_le.1 (quarter_bounds hgreat)).1
  have hunit := two_pow_le_places exponent
  have hpi : (2 : ℝ) ^ placesOf exponent * (3 / 2) ≤ 2 ^ placesOf exponent * (Real.pi / 2) := by
    gcongr
    exact Real.pi_gt_three.le
  linarith

theorem two_quarters_le (hgreat : exponent ≤ 971) :
    (Series.halfPi (placesOf exponent) : ℝ) / 2 + 1 ≤ 2 ^ placesOf exponent * (4 / 5) := by
  have hquarter := (abs_le.1 (quarter_bounds hgreat)).2
  have hunit := two_pow_le_places exponent
  have hpi : (2 : ℝ) ^ placesOf exponent * (Real.pi / 2) ≤ 2 ^ placesOf exponent * (315 / 200) := by
    refine mul_le_mul_of_nonneg_left ?_ (by positivity)
    linarith [Real.pi_lt_d2]
  linarith

theorem value_lt (hwidth : mantissa < 2 ^ 53) (exponent : Int) :
    (mantissa * 2 ^ exponent : ℝ) < 2 ^ (exponent + 53).toNat := by
  have hmantissa : (mantissa : ℝ) < 2 ^ 53 := by exact_mod_cast hwidth
  calc (mantissa * 2 ^ exponent : ℝ) < 2 ^ 53 * 2 ^ exponent := by gcongr
    _ = 2 ^ (exponent + 53) := by rw [zpow_add₀ two_ne_zero, mul_comm]; rfl
    _ ≤ 2 ^ ((exponent + 53).toNat : ℤ) := zpow_le_zpow_right₀ one_le_two (Int.self_le_toNat _)
    _ = 2 ^ (exponent + 53).toNat := zpow_natCast _ _

theorem halfPi_pos (hgreat : exponent ≤ 971) : 0 < Series.halfPi (placesOf exponent) := by
  have hunit : (0 : ℝ) < 2 ^ placesOf exponent := by positivity
  exact_mod_cast hunit.trans (unit_lt_quarter hgreat)

theorem left_bounds (mantissa : Nat) (hgreat : exponent ≤ 971) :
    -(Series.halfPi (placesOf exponent) : ℝ) ≤ 2 * left mantissa exponent ∧
      2 * left mantissa exponent < (Series.halfPi (placesOf exponent) : ℝ) := by
  obtain ⟨hlow, hhigh⟩ := nearestQuarter_bounds (fixed mantissa exponent) (halfPi_pos hgreat)
  exact ⟨by exact_mod_cast hlow, by exact_mod_cast hhigh⟩

theorem cast_left (mantissa : Nat) (exponent : Int) : (left mantissa exponent : ℝ) =
    fixed mantissa exponent - taken mantissa exponent * Series.halfPi (placesOf exponent) := by
  rw [left]
  push_cast
  rfl

theorem taken_nonneg (mantissa : Nat) (hgreat : exponent ≤ 971) : 0 ≤ taken mantissa exponent := by
  have hquarter := halfPi_pos hgreat
  have hfixed : 0 ≤ fixed mantissa exponent := Int.natCast_nonneg _
  exact Int.ediv_nonneg (by omega) (by omega)

theorem taken_le (hwidth : mantissa < 2 ^ 53) (hgreat : exponent ≤ 971) :
    (taken mantissa exponent : ℝ) ≤ 2 ^ (exponent + 53).toNat * 2 := by
  have hunit := unit_lt_quarter hgreat
  have hone : (1 : ℝ) ≤ 2 ^ placesOf exponent := one_le_pow₀ one_le_two
  have hleft := (left_bounds mantissa hgreat).1
  have hvalue := (fixed_bounds mantissa exponent).1
  have hlt := value_lt hwidth exponent
  have hsize : (1 : ℝ) ≤ 2 ^ (exponent + 53).toNat := one_le_pow₀ one_le_two
  rw [cast_left] at hleft
  generalize (taken mantissa exponent : ℝ) = q at *
  generalize (Series.halfPi (placesOf exponent) : ℝ) = quarter at *
  generalize (fixed mantissa exponent : ℝ) = f at *
  generalize (mantissa * 2 ^ exponent : ℝ) = v at *
  generalize (2 : ℝ) ^ (exponent + 53).toNat = size at *
  generalize (2 : ℝ) ^ placesOf exponent = unit at *
  by_contra! hgreater
  have hmany : 0 ≤ (quarter - unit) * (2 * q - 1) := mul_nonneg (by linarith) (by linarith)
  have hscaled : unit * v ≤ unit * size := by gcongr
  nlinarith

theorem abs_left_sub_le (hwidth : mantissa < 2 ^ 53) (hgreat : exponent ≤ 971) :
    |(left mantissa exponent : ℝ) / 2 ^ placesOf exponent -
      (mantissa * 2 ^ exponent - taken mantissa exponent * (Real.pi / 2))| ≤ 1 / 2 ^ 200 := by
  have htaken := taken_le hwidth hgreat
  have hnonneg : (0 : ℝ) ≤ taken mantissa exponent := by exact_mod_cast taken_nonneg mantissa hgreat
  obtain ⟨hfixedHigh, hfixedLow⟩ := fixed_bounds mantissa exponent
  have hquarter := quarter_bounds hgreat
  have hunit : (2 : ℝ) ^ placesOf exponent = 2 ^ 120 * 2 ^ (exponent + 53).toNat * 2 ^ 200 := by
    rw [← pow_add, ← pow_add, placesOf, workPlaces]
    congr 1
    omega
  have hsize : (1 : ℝ) ≤ 2 ^ (exponent + 53).toNat := one_le_pow₀ one_le_two
  have hunitPos : (0 : ℝ) < 2 ^ placesOf exponent := by positivity
  rw [cast_left]
  generalize (taken mantissa exponent : ℝ) = q at *
  generalize (Series.halfPi (placesOf exponent) : ℝ) = quarter at *
  generalize (fixed mantissa exponent : ℝ) = f at *
  generalize (mantissa * 2 ^ exponent : ℝ) = v at *
  generalize (2 : ℝ) ^ (exponent + 53).toNat = size at *
  generalize (2 : ℝ) ^ placesOf exponent = unit at *
  have hloss : (f - q * quarter) / unit - (v - q * (Real.pi / 2)) =
      (f - unit * v - q * (quarter - unit * (Real.pi / 2))) / unit := by
    field_simp
    ring
  have hfixed : |f - unit * v| ≤ 1 := abs_le.2 ⟨by linarith, by linarith⟩
  have hproduct : |q * (quarter - unit * (Real.pi / 2))| ≤ size * 2 * 2 ^ 15 := by
    rw [abs_mul, abs_of_nonneg hnonneg]
    exact mul_le_mul htaken hquarter (abs_nonneg _) (by linarith)
  rw [hloss, abs_div, abs_of_pos hunitPos, div_le_div_iff₀ hunitPos (by positivity)]
  have htotal := (abs_sub (f - unit * v) (q * (quarter - unit * (Real.pi / 2)))).trans
    (add_le_add hfixed hproduct)
  calc |f - unit * v - q * (quarter - unit * (Real.pi / 2))| * 2 ^ 200 ≤
    (1 + size * 2 * 2 ^ 15) * 2 ^ 200 := by gcongr
    _ ≤ 2 ^ 120 * size * 2 ^ 200 := by gcongr; linarith
    _ = 1 * unit := by rw [hunit, one_mul]

theorem offset_exact (mantissa : Nat) (exponent : Int) :
    offset ⟨0, (ratio mantissa exponent).1, (-exponent).toNat⟩ = mantissa * 2 ^ exponent := by
  have hden : (ratio mantissa exponent).2 = 2 ^ (-exponent).toNat := by
    rw [ratio]
    split
    · next hpos => rw [Int.toNat_eq_zero.2 (by omega : -exponent ≤ 0), pow_zero]
    · rfl
  have hvalue := cast_ratio mantissa exponent
  rw [hden] at hvalue
  rw [offset_eq, ← hvalue]
  push_cast
  rfl

theorem quarters_nonneg (mantissa : Nat) (hgreat : exponent ≤ 971) :
    0 ≤ (Angle.of mantissa exponent).quarters := by
  rw [of_eq]
  split
  · exact le_rfl
  · exact taken_nonneg mantissa hgreat

theorem abs_offset_sub_le (hwidth : mantissa < 2 ^ 53) (hgreat : exponent ≤ 971) :
    |(Angle.of mantissa exponent).offset -
      (mantissa * 2 ^ exponent - (Angle.of mantissa exponent).quarters * (Real.pi / 2))| ≤
        1 / 2 ^ 200 := by
  rw [of_eq]
  split
  · rw [offset_exact, Int.cast_zero, zero_mul, sub_zero, sub_self, abs_zero]
    positivity
  · rw [offset_eq]
    exact abs_left_sub_le hwidth hgreat

theorem abs_offset_le (mantissa : Nat) (hgreat : exponent ≤ 971) :
    |(Angle.of mantissa exponent).offset| ≤ 4 / 5 := by
  have hunit : (0 : ℝ) < 2 ^ placesOf exponent := by positivity
  have hhalf := two_quarters_le hgreat
  obtain ⟨hlow, hhigh⟩ := left_bounds mantissa hgreat
  rw [of_eq]
  split
  · next hzero =>
    rw [offset_exact, abs_of_nonneg (by positivity), ← mul_le_mul_iff_right₀ hunit]
    rw [cast_left, hzero, Int.cast_zero, zero_mul, sub_zero] at hhigh
    have hvalue := (fixed_bounds mantissa exponent).2
    linarith
  · rw [offset_eq, abs_div, abs_of_pos hunit, div_le_iff₀ hunit, abs_le]
    constructor <;> linarith

theorem negatedSquare_bounds (h : |a.offset| ≤ 1) :
    a.negatedSquare ≤ 0 ∧ -a.negatedSquare ≤ (2 ^ workPlaces : Nat) ∧
      -(a.offset ^ 2) ≤ (a.negatedSquare : ℝ) / 2 ^ workPlaces := by
  have hsquare : (0 : Int) ≤ a.rest * a.rest * (2 ^ workPlaces : Nat) :=
    mul_nonneg (mul_self_nonneg _) (Int.natCast_nonneg _)
  have hrounded := (Series.intCast_ediv_bounds (a.rest * a.rest * (2 ^ workPlaces : Nat))
    (Nat.pow_pos (by decide : 0 < 4) : 0 < 4 ^ a.places)).1
  have hquotient : ((a.rest * a.rest * (2 ^ workPlaces : Nat) : Int) : ℝ) /
    ((4 ^ a.places : Nat) : ℝ) =
      a.offset ^ 2 * 2 ^ workPlaces := by
    have hfour : (4 : ℝ) ^ a.places = 2 ^ a.places * 2 ^ a.places := by
      rw [← mul_pow]
      norm_num
    rw [offset_eq]
    push_cast
    rw [hfour]
    field_simp
  have hunit : (0 : ℝ) < 2 ^ workPlaces := by positivity
  rw [hquotient] at hrounded
  rw [negatedSquare, neg_neg]
  refine ⟨neg_nonpos.2 (Int.ediv_nonneg hsquare (Int.natCast_nonneg _)), ?_, ?_⟩
  · have hone : a.offset ^ 2 * 2 ^ workPlaces ≤ 2 ^ workPlaces := by
      have hle : a.offset ^ 2 ≤ 1 := (sq_le_one_iff_abs_le_one _).2 h
      exact mul_le_of_le_one_left hunit.le hle
    exact_mod_cast hrounded.trans hone
  · rw [le_div_iff₀ hunit]
    push_cast at hrounded ⊢
    linarith

theorem series_bounds (steps : Series.Steps) (h : |a.offset| ≤ 1)
    (hsteps : ∀ n, (steps n).1 = 1 ∧ 0 < (steps n).2) :
    1 - a.offset ^ 2 / (steps 0).2 - 1 / 2 ^ workPlaces ≤
      (Series.sum steps workPlaces a.negatedSquare : ℝ) / 2 ^ workPlaces ∧
    (Series.sum steps workPlaces a.negatedSquare : ℝ) / 2 ^ workPlaces ≤ 1 := by
  obtain ⟨hnonpos, hbound, hsquare⟩ := negatedSquare_bounds h
  have hshrinks : Series.Shrinks steps workPlaces a.negatedSquare :=
    ⟨hnonpos, hbound, fun n => ⟨(hsteps n).1.trans_le (hsteps n).2, (hsteps n).2⟩⟩
  obtain ⟨hlow, hhigh⟩ := hshrinks.sum_bounds
  have hlow' : (_ : ℝ) ≤ _ := Int.cast_le.2 hlow
  have hhigh' : (_ : ℝ) ≤ _ := Int.cast_le.2 hhigh
  have hsecond := (Series.intCast_ediv_bounds (a.negatedSquare * ((steps 0).1 : Nat))
    (hsteps 0).2).2
  have hden : (0 : ℝ) < (steps 0).2 := by exact_mod_cast (hsteps 0).2
  have hunit : (0 : ℝ) < 2 ^ workPlaces := by positivity
  rw [(hsteps 0).1, Nat.cast_one, mul_one] at hsecond hlow'
  rw [le_div_iff₀ hunit] at hsquare
  rw [Int.cast_add] at hlow'
  push_cast at hlow' hhigh'
  constructor
  · rw [le_div_iff₀ hunit]
    have hscaled : -(a.offset ^ 2) * 2 ^ workPlaces / (steps 0).2 ≤
      (a.negatedSquare : ℝ) / (steps 0).2 := by gcongr
    have hproduct : (1 - a.offset ^ 2 / (steps 0).2 - 1 / 2 ^ workPlaces) * 2 ^ workPlaces =
        2 ^ workPlaces + -(a.offset ^ 2) * 2 ^ workPlaces / (steps 0).2 - 1 := by
      field_simp
      ring
    rw [hproduct]
    linarith
  · rw [div_le_one hunit]
    exact hhigh'

theorem cast_unit (a : Angle) : (a.unit : ℝ) = 2 ^ a.places * 2 ^ workPlaces := by
  rw [unit, Nat.cast_pow, Nat.cast_ofNat, pow_add]

theorem one_div_workPlaces_le : (1 : ℝ) / 2 ^ workPlaces ≤ 1 / 2 ^ 200 :=
  one_div_le_one_div_of_le (by positivity) (pow_le_pow_right₀ one_le_two (by decide))

theorem sinRest_bounds (h : |a.offset| ≤ 4 / 5) :
    |a.offset| * (1 - a.offset ^ 2 / 6 - 1 / 2 ^ 200) ≤ (a.sinRest.natAbs : ℝ) / a.unit ∧
      (a.sinRest.natAbs : ℝ) / a.unit ≤ |a.offset| := by
  obtain ⟨hlow, hhigh⟩ := series_bounds Series.sine (h.trans (by norm_num))
    fun n => ⟨rfl, Nat.mul_pos (Nat.succ_pos _) (Nat.succ_pos _)⟩
  have hsix : ((Series.sine 0).2 : ℝ) = 6 := by norm_num [Series.sine]
  have hsquare : a.offset ^ 2 ≤ 1 := (sq_le_one_iff_abs_le_one _).2 (h.trans (by norm_num))
  have hplaces := one_div_workPlaces_le
  have hrest : |(a.rest : ℝ)| / 2 ^ a.places = |a.offset| := by
    rw [offset_eq, abs_div, abs_of_pos (by positivity : (0 : ℝ) < 2 ^ a.places)]
  have hsize : (a.sinRest.natAbs : ℝ) / a.unit =
      |a.offset| * |(Series.sum Series.sine workPlaces a.negatedSquare : ℝ) / 2 ^ workPlaces| := by
    rw [Nat.cast_natAbs, Int.cast_abs, sinRest, Int.cast_mul, abs_mul,
      cast_unit, mul_div_mul_comm, hrest, abs_div,
      abs_of_pos (by positivity : (0 : ℝ) < 2 ^ workPlaces)]
  rw [hsix] at hlow
  have hnonneg : (0 : ℝ) ≤ Series.sum Series.sine workPlaces a.negatedSquare / 2 ^ workPlaces := by
    linarith
  rw [hsize, abs_of_nonneg hnonneg]
  exact ⟨mul_le_mul_of_nonneg_left (by linarith) (abs_nonneg _),
    mul_le_of_le_one_right (abs_nonneg _) hhigh⟩

theorem cosRest_bounds (h : |a.offset| ≤ 4 / 5) :
    1 / 2 ≤ (a.cosRest.natAbs : ℝ) / a.unit ∧ (a.cosRest.natAbs : ℝ) / a.unit ≤ 1 := by
  obtain ⟨hlow, hhigh⟩ := series_bounds Series.cosine (h.trans (by norm_num))
    fun n => ⟨rfl, Nat.mul_pos (Nat.succ_pos _) (Nat.succ_pos _)⟩
  have htwo : ((Series.cosine 0).2 : ℝ) = 2 := by norm_num [Series.cosine]
  have hsquare : a.offset ^ 2 ≤ (4 / 5) ^ 2 := sq_le_sq' (abs_le.1 h).1 (abs_le.1 h).2
  have hplaces := one_div_workPlaces_le
  have hsize : (a.cosRest.natAbs : ℝ) / a.unit =
      |(Series.sum Series.cosine workPlaces a.negatedSquare : ℝ) / 2 ^ workPlaces| := by
    rw [Nat.cast_natAbs, Int.cast_abs, cosRest, Int.cast_mul, abs_mul,
      cast_unit, mul_div_mul_comm, abs_div,
      abs_of_pos (by positivity : (0 : ℝ) < 2 ^ workPlaces), Int.cast_pow, Int.cast_ofNat,
      abs_of_pos (by positivity : (0 : ℝ) < 2 ^ a.places), div_self (by positivity), one_mul]
  rw [htwo] at hlow
  rw [hsize, abs_of_nonneg (by linarith)]
  exact ⟨by linarith, hhigh⟩

theorem natAbs_cos (a : Angle) :
    a.cos.natAbs = if a.quarters % 2 = 0 then a.cosRest.natAbs else a.sinRest.natAbs := by
  rw [cos]
  split_ifs <;> omega

theorem natAbs_sin (a : Angle) :
    a.sin.natAbs = if a.quarters % 2 = 0 then a.sinRest.natAbs else a.cosRest.natAbs := by
  rw [sin]
  split_ifs <;> omega

end Angle

end Calculator.Binary64
