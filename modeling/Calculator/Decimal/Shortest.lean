import Calculator.Decimal.Nearest

/-!
# The shortest decimal that reads back

On the decimal grids of one, two, … seventeen significant digits the two neighbours of a double are
read back. The first grid with a neighbour that reads back gives the digits; of two such neighbours
the nearer one is taken, and of two equally near ones the choice belongs to the caller. Should none
of these grids do, the exact decimal expansion is used, which every finite double has. So the digits
read back wherever they come from a grid.
-/

namespace Calculator

inductive TieRule where
  | up
  | even
deriving DecidableEq, Repr

namespace Decimal

def scaleDown (num den : Nat) (k : Int) : Nat × Nat :=
  if 0 ≤ k then (num, den * 10 ^ k.toNat) else (num * 10 ^ (-k).toNat, den)

def belowPower (num den : Nat) (k : Int) : Bool :=
  let (n, d) := scaleDown num den k
  n < d

def magnitudeFrom : Nat → Int → Nat → Nat → Int
  | 0, start, _, _ => start
  | fuel + 1, start, num, den =>
    if belowPower num den start then start else magnitudeFrom fuel (start + 1) num den

def magnitude (num den : Nat) : Int :=
  magnitudeFrom 6 (((num.log2 : Int) - den.log2 - 1) * 1233 / 4096 - 1) num den

def neighbours (tie : TieRule) (num den : Nat) (k : Int) : List Decimal :=
  let (a, b) := scaleDown num den k
  let down := a / b
  let below := a - down * b
  let above := (down + 1) * b - a
  let upFirst : Bool := match tie with
    | .up => above ≤ below
    | .even => above < below || (above == below && down % 2 == 1)
  if upFirst then [⟨down + 1, k⟩, ⟨down, k⟩] else [⟨down, k⟩, ⟨down + 1, k⟩]

def onGrid? (tie : TieRule) (pattern num den : Nat) (k : Int) : Option Decimal :=
  ((neighbours tie num den k).map normalize).find? fun d => d.pattern? == some pattern

theorem pattern?_of_onGrid? {tie : TieRule} {pattern num den : Nat} {k : Int} {d : Decimal}
    (h : onGrid? tie pattern num den k = some d) : d.pattern? = some pattern := by
  simpa using List.find?_some h

/-- The shortest decimal that reads back as `mantissa * 2 ^ exponent`. -/
def shortest (tie : TieRule) (mantissa : Nat) (exponent : Int) : Decimal :=
  if mantissa = 0 then ⟨0, 0⟩
  else
    let (num, den) := Binary64.ratio mantissa exponent
    let pattern := Binary64.patternOf mantissa exponent
    let p := magnitude num den
    let found := (List.range 17).findSome? fun (n : Nat) => onGrid? tie pattern num den (p - 1 - n)
    found.getD (exact mantissa exponent)

theorem shortest_zero (tie : TieRule) (exponent : Int) : shortest tie 0 exponent = ⟨0, 0⟩ := by
  simp [shortest]

end Decimal

end Calculator
