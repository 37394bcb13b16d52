import Calculator.Decimal.Basic

/-!
# The double nearest to a decimal

A decimal is read as the double nearest to it. Decimals far beyond the largest double have none, and
decimals far below the smallest one read as zero, so the powers of ten stay small.
-/

namespace Calculator.Decimal

def exponentBound : Int := 400

/-- The pattern of the double nearest to a decimal, unless that is infinite. -/
def pattern? (d : Decimal) : Option Nat :=
  if d.digits = 0 then some 0
  else if exponentBound < scientificExponent d then none
  else if scientificExponent d < -exponentBound then some 0
  else
    let pattern := Binary64.patternOfRatio d.ratio.1 d.ratio.2
    if pattern < Binary64.infinityPattern then some pattern else none

theorem pattern?_zero (e : Int) : pattern? ⟨0, e⟩ = some 0 := by
  simp [pattern?]

theorem pattern?_lt_infinityPattern {d : Decimal} {p : Nat} (h : pattern? d = some p) :
    p < Binary64.infinityPattern := by
  unfold pattern? at h
  split at h
  · cases h; decide
  · split at h
    · cases h
    · split at h
      · cases h; decide
      · simp only at h
        split at h
        · cases h; assumption
        · cases h

def nearest? (negative : Bool) (d : Decimal) : Option Float :=
  d.pattern?.map (Binary64.floatOfPattern negative)

theorem nearest?_zero (negative : Bool) (e : Int) :
    nearest? negative ⟨0, e⟩ = some (Binary64.floatOfPattern negative 0) := by
  simp [nearest?, pattern?_zero]

end Calculator.Decimal
