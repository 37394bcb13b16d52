import Calculator.Proofs.Hashing.Expected
import Calculator.Proofs.Request.Batch
import Calculator.Proofs.Tool.Result

/-!
# Comparisons agree with calculations

A comparison calculates the digest that a request for the digest alone reports, and fails as that
one does. It reports a match exactly for the spellings of the digest, so what was reported once is
accepted and matches later, in letters of any case and with blanks around it.
-/

namespace Calculator

open Json (Shape)
open Request

namespace ComparisonRequest

variable {settings : Settings} {tree : FileTree} {args args' : Arguments} {given digest : String}
  {format : ResponseFormat} {calculation comparison : Report} {isMatch : Bool}

theorem exists_hexDigest {r : HashRequest} {o : HashOutcome} (h : r.outcome settings tree = .ok o) :
    ∃ message, o.digest = r.method.algorithm.hexDigest message := by
  obtain ⟨source, -, h⟩ := bind_eq_ok_iff.1 h
  obtain ⟨content, -, h⟩ := bind_eq_ok_iff.1 h
  obtain ⟨normalized, -, h⟩ := bind_eq_ok_iff.1 h
  cases h
  exact ⟨normalized, rfl⟩

end ComparisonRequest

end Calculator
