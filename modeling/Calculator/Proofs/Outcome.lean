import Calculator.Failure
import Mathlib.Control.Monad.Basic

/-!
# Computations that may fail

A computation in several steps succeeds with what its last step yields when all of its steps
succeed.
-/

namespace Calculator

variable {ε ε' α β : Type} {x : Except ε α}

theorem bind_eq_ok_iff {next : α → Except ε β} {b : β} :
    x >>= next = .ok b ↔ ∃ a, x = .ok a ∧ next a = .ok b := by
  cases x with
  | error fault => simp [bind, Except.bind]
  | ok a => simp [bind, Except.bind]

theorem eq_ok_of_toOption {a : α} (h : x.toOption = some a) : x = .ok a := by
  cases x with
  | error fault => cases h
  | ok b => exact congrArg _ (Option.some.inj h)

theorem isFinite_of_finite {x y : Float} {what : String} (h : finite x what = .ok y) :
    y.isFinite = true := by
  obtain ⟨rfl, hfinite⟩ := finite_eq_ok h
  exact hfinite

end Calculator
