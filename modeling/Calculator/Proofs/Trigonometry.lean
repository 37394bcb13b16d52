import Calculator.Proofs.Binary64.Moderate
import Calculator.Proofs.Outcome
import Calculator.Trigonometry

/-!
# Trigonometric functions are finite

An angle in degrees is finite in radians, and an angle that an inverse function gives is moderate,
so it is finite in degrees too. The tangent is the only function that checks its value.
-/

namespace Calculator.TrigOperation

open Binary64

variable {x y : Float} {useRadians : Bool} {what : String}

theorem ofFloat_radiansPerDegree :
    ofFloat radiansPerDegree = .finite false 5030569068109113 (-58) := by
  decide +kernel

theorem ofFloat_degreesPerRadian :
    ofFloat degreesPerRadian = .finite false 8063664102031864 (-47) := by
  decide +kernel

theorem isFinite_toRadians (h : x.isFinite = true) : (toRadians useRadians x).isFinite = true := by
  cases useRadians with
  | true => exact h
  | false =>
    obtain ⟨negative, mantissa, exponent, hparts, hwidth, -, hgreatest, -⟩ := exists_parts h
    exact isFinite_mul hparts hwidth ofFloat_radiansPerDegree (by decide) (by omega)

theorem isFinite_fromRadians (h : IsModerate x) : (fromRadians useRadians x).isFinite = true := by
  cases useRadians with
  | true => exact h.isFinite
  | false =>
    obtain ⟨negative, mantissa, exponent, hparts, hwidth, hexponent⟩ := h
    exact isFinite_mul hparts hwidth ofFloat_degreesPerRadian (by decide) (by omega)

theorem parts_of_unitInterval (h : x.isFinite = true) (hunit : unitInterval x what = .ok y) :
    y = x ∧ ∃ negative mantissa exponent, ofFloat x = .finite negative mantissa exponent ∧
      (ratio mantissa exponent).1 ≤ (ratio mantissa exponent).2 := by
  obtain ⟨negative, mantissa, exponent, hparts, hwidth, -⟩ := exists_parts h
  unfold unitInterval at hunit
  split at hunit
  · next hbounds =>
    cases hunit
    rw [Bool.and_eq_true, decide_eq_true_eq, decide_eq_true_eq] at hbounds
    exact ⟨rfl, negative, mantissa, exponent, hparts,
      ratio_le_of_le_one hparts hwidth hbounds.1 hbounds.2⟩
  · cases hunit

theorem isFinite_of_evaluate {op : TrigOperation} (h : x.isFinite = true)
    (heval : op.evaluate x useRadians = .ok y) : y.isFinite = true := by
  cases op with
  | sin =>
    cases heval
    exact isFinite_sin (isFinite_toRadians h)
  | cos =>
    cases heval
    exact isFinite_cos (isFinite_toRadians h)
  | tan =>
    simp only [evaluate] at heval
    split at heval
    · cases heval
    · exact isFinite_of_finite heval
  | asin =>
    obtain ⟨ratio, hunit, hangle⟩ := bind_eq_ok_iff.1 heval
    obtain ⟨rfl, negative, mantissa, exponent, hparts, hle⟩ := parts_of_unitInterval h hunit
    cases hangle
    exact isFinite_fromRadians (isModerate_asin hparts hle)
  | acos =>
    obtain ⟨ratio, hunit, hangle⟩ := bind_eq_ok_iff.1 heval
    obtain ⟨rfl, negative, mantissa, exponent, hparts, hle⟩ := parts_of_unitInterval h hunit
    cases hangle
    exact isFinite_fromRadians (isModerate_acos hparts hle)
  | atan =>
    cases heval
    exact isFinite_fromRadians (isModerate_atan h)

end Calculator.TrigOperation
