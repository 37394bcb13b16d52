import Calculator.Proofs.Binary64.Rounded
import Calculator.Proofs.Json.RoundTrip

/-!
# Floating numbers in canonical text

The canonical text of a finite double is set out from its scientific form, the digits of which are
the shortest ones. It is a numeral of the same number with the sign of the double, and is read back
as the double itself, so different doubles have different texts.
-/

namespace Calculator

open Decimal (Layout digitChars)

def Decimal.Layout.scientific : Layout := ⟨some (1, 0), false, [], 1, .up⟩

namespace Json

variable {d : Decimal} {hzero : d.digits = 0 → d.exponent = 0} {s : Scientific}
  {n : Numeral} {x y : Float} {e : Int}

theorem not_isPositional_scientific : ¬IsPositional .scientific e := by
  simp only [IsPositional, Layout.scientific, Option.mem_some_iff, forall_eq']
  omega

theorem isPositional_canonicalLayout : IsPositional canonicalLayout e ↔ -4 ≤ e ∧ e ≤ 15 := by
  simp [IsPositional, canonicalLayout]

theorem Scientific.chars_ofDecimal : (ofDecimal d hzero).chars = Decimal.chars .scientific d := by
  have hdigits := digits_ofDecimal d hzero
  have hplus :
      Layout.scientific.exponentWidth - (digitChars d.scientificExponent.natAbs).length = 0 :=
    Nat.sub_eq_zero_of_le (List.length_pos_of_ne_nil (digitChars_ne_nil _))
  rw [chars_of_not_isPositional not_isPositional_scientific, Decimal.scientificChars,
    ← hdigits, Decimal.exponentChars, hplus]
  simp only [chars, digits, List.take_succ_cons, List.take_zero, List.drop_succ_cons,
    List.drop_zero, List.singleton_append]
  have hexponent : (ofDecimal d hzero).exponent = d.scientificExponent := rfl
  cases (ofDecimal d hzero).others <;> simp [hexponent, Layout.scientific]

theorem Scientific.SetsOut.mark_mem_chars {layout : Layout} (h : s.SetsOut layout n) :
    '.' ∈ n.chars ∨ 'e' ∈ n.chars := by
  rw [Numeral.chars, Numeral.unsigned]
  cases h with
  | positional hrange hexponent h =>
    rw [Numeral.fractionChars_of_ne_nil h.fraction_ne_nil]
    exact .inl (by simp)
  | exponential x hrange hwhole hfraction hexponent hx =>
    rw [hexponent, exponentChars?, Exponent.chars, hx.capital]
    exact .inr (by simp)

structure WritesExactly (x : Float) (s : Scientific) (n : Numeral) : Prop where
  scientific : floatChars .scientific x.abs = s.chars
  text : Spelling.canonical.float x = n.chars
  negative : n.negative = Binary64.isNegative x
  setsOut : s.SetsOut canonicalLayout n
  value : n.decimal.value = s.value
  positional : n.exponent = none ↔ -4 ≤ s.exponent ∧ s.exponent ≤ 15
  exponent : ∀ e, n.exponent = some e →
    e.capital = false ∧ e.sign = some (decide (s.exponent < 0)) ∧ 2 ≤ e.digits.length
  mark : '.' ∈ n.chars ∨ 'e' ∈ n.chars
  parse : Json.parse n.chars = .ok (.float x)

theorem parse_float_of_value? (h : n.value? = some (.float x)) :
    parse n.chars = .ok (.float x) := by
  have hrenders : RendersDocument (.float x) ([] ++ (n.chars ++ [])) :=
    .document isSpace_nil (.number h) isSpace_nil
  have hkeys : DistinctKeys (.float x) := by rintro ms ⟨⟩
  simpa [sorted] using parse_of_renders hrenders (Nat.zero_le _) hkeys

theorem exists_writesExactly (hx : x.isFinite = true) : ∃ s n, WritesExactly x s n := by
  obtain ⟨negative, pattern, hpattern, rfl⟩ := Binary64.exists_floatOfPattern hx
  obtain ⟨m, e, hparts, -⟩ := Binary64.ofPattern_eq_finite negative hpattern
  have habs : Binary64.ofPattern false pattern = .finite false m e :=
    Binary64.ofPattern_of_sign hparts
  have hread := Decimal.pattern?_shortest .up hpattern hparts
  have hzero := Decimal.exponent_shortest_of_digits_eq_zero .up hpattern hparts
  obtain ⟨n, rfl, hsets⟩ := (Scientific.ofDecimal _ hzero).exists_setsOut canonicalLayout negative
  refine ⟨Scientific.ofDecimal _ hzero, n, ?_⟩
  constructor
  case scientific =>
    rw [Binary64.abs_floatOfPattern _ hpattern, Scientific.chars_ofDecimal, floatChars,
      Binary64.ofFloat_floatOfPattern hpattern, habs]
    rfl
  case text =>
    rw [Numeral.chars, hsets.unsigned isJsonLayout_canonicalLayout]
    simp only [Spelling.canonical, finiteChars, hx, if_true, floatChars,
      Binary64.ofFloat_floatOfPattern hpattern, hparts]
    rfl
  case negative => exact (Binary64.isNegative_floatOfPattern _ hpattern).symm
  case setsOut => exact hsets
  case value => exact hsets.value
  case positional => exact hsets.exponent_eq_none_iff.trans isPositional_canonicalLayout
  case exponent =>
    intro x hexponent
    have hx := hsets.writesExponent hexponent
    refine ⟨hx.capital, ?_, hx.width_le⟩
    rw [hx.sign]
    split <;> simp [*, canonicalLayout]
  case mark => exact hsets.mark_mem_chars
  case parse => exact parse_float_of_value? (hsets.value? hread)

/-- A finite double is written exactly, and no other finite double has its text. -/
theorem canonicalFloat_exact (hx : x.isFinite = true) :
    (∃ s n, WritesExactly x s n) ∧
      ∀ y : Float, y.isFinite = true → x.toBits ≠ y.toBits →
        Spelling.canonical.float x ≠ Spelling.canonical.float y := by
  refine ⟨exists_writesExactly hx, ?_⟩
  intro y hy hbits htext
  obtain ⟨s, n, h⟩ := exists_writesExactly hx
  obtain ⟨s', n', h'⟩ := exists_writesExactly hy
  rw [h.text, h'.text] at htext
  have hparse := h.parse
  rw [htext, h'.parse, Except.ok.injEq, Json.float.injEq] at hparse
  exact hbits (congrArg Float.toBits hparse.symm)

theorem canonicalFloat_exact_negativeZero :
    (Binary64.floatOfPattern true 0).isFinite = true ∧
      Spelling.canonical.float (Binary64.floatOfPattern true 0) = ['-', '0', '.', '0'] ∧
      (∃ s n, WritesExactly (Binary64.floatOfPattern true 0) s n) ∧
      ∀ y : Float, y.isFinite = true → (Binary64.floatOfPattern true 0).toBits ≠ y.toBits →
        Spelling.canonical.float (Binary64.floatOfPattern true 0) ≠ Spelling.canonical.float y := by
  have hfinite : (Binary64.floatOfPattern true 0).isFinite = true :=
    Binary64.isFinite_floatOfPattern (by decide)
  exact ⟨hfinite, by decide +kernel, canonicalFloat_exact hfinite⟩

example :
    Spelling.canonical.float (Float.ofBits 0x430C6BF526340000) = "1000000000000000.0".toList ∧
      Spelling.canonical.float (Float.ofBits 0x4341C37937E08000) = "1e+16".toList := by
  decide +kernel

end Json

end Calculator
