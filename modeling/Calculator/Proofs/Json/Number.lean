import Calculator.Json.Writer
import Calculator.Proofs.Binary64.Pattern
import Calculator.Proofs.Json.Rendering
import Calculator.Proofs.Json.Scientific

/-!
# Written numbers

A whole number is written by its digits, and a finite double by its shortest digits, set out with a
point or with an exponent. Either text is a numeral of the number that was written.
-/

namespace Calculator.Json

open Decimal (digitChars)

theorem eq_zero_of_head?_digitChars {n : Nat} (h : (digitChars n).head? = some '0') :
    digitChars n = ['0'] := by
  by_cases hn : n = 0
  · rw [hn, digitChars_zero]
  · exact absurd h (head?_digitChars hn)

def Numeral.ofInt (i : Int) : Numeral where
  negative := decide (i < 0)
  whole := digitChars i.natAbs
  fraction := []
  exponent := none
  whole_ne_nil := digitChars_ne_nil _
  isDigit_of_mem_whole := fun _ hc => isDigit_of_mem_digitChars hc
  no_leading_zero := eq_zero_of_head?_digitChars
  isDigit_of_mem_fraction := fun _ hc => nomatch hc

theorem Numeral.significand_ofInt (i : Int) : (ofInt i).significand = i.natAbs :=
  digitsValue_digitChars i.natAbs

theorem Numeral.chars_ofInt (i : Int) : (ofInt i).chars = writeWhole i := by
  by_cases hneg : i < 0 <;>
    simp [ofInt, writeWhole, chars, unsigned, fractionChars, exponentChars?,
      signChars, hneg, digitChars]

theorem Numeral.value?_ofInt (w : Whole) : (ofInt w.val).value? = some (.whole w) := by
  have hnonzero : ¬((ofInt w.val).negative = true ∧ (ofInt w.val).significand = 0) := by
    rw [significand_ofInt, ofInt, decide_eq_true_eq]
    omega
  have hint :
      (if (ofInt w.val).negative then -(ofInt w.val).significand else (ofInt w.val).significand :
        Int) = w.val := by
    rw [significand_ofInt, ofInt]
    by_cases hneg : w.val < 0
    · simp only [hneg, decide_true, if_true]
      omega
    · simp only [hneg, decide_false, Bool.false_eq_true, if_false]
      omega
  rw [value?, whole?, if_pos ⟨rfl, rfl, hnonzero⟩, hint, Whole.ofInt?_val]

theorem renders_writeWhole (w : Whole) : Renders (.whole w) (writeWhole w.val) :=
  Numeral.chars_ofInt w.val ▸ .number (Numeral.value?_ofInt w)

variable {layout : Decimal.Layout} {d : Decimal} {hzero : d.digits = 0 → d.exponent = 0}
  {n : Numeral} {x : Exponent} {negative : Bool} {pattern places : Nat}

theorem scaled?_of_pattern? (hvalue : x.value = d.scientificExponent)
    (hplaces : d.scientificExponent = d.exponent + places) (hpattern : d.pattern? = some pattern) :
    scaled? negative d.digits (-places)
    (some x) = some (Binary64.floatOfPattern negative pattern) := by
  have hnearest := Decimal.nearest?_of_pattern? negative hpattern
  have hexponent : (if x.negative then -(places : Int) - x.magnitude else
    -(places : Int) + x.magnitude) =
      d.exponent := by
    rw [Exponent.value] at hvalue
    by_cases hneg : x.negative = true
    · rw [if_pos hneg] at hvalue ⊢
      omega
    · rw [if_neg hneg] at hvalue ⊢
      omega
  rw [scaled?, hexponent]
  split
  · exact hnearest
  · next hlarge =>
    -- An exponent that large belongs to a zero or to no double at all.
    have hlimit : (400 : Int) < exponentLimit := by decide
    unfold Decimal.pattern? at hpattern
    by_cases hzero : d.digits = 0
    · rw [if_pos hzero] at hpattern
      cases hpattern
      rw [if_neg (by simp [hzero])]
    rw [if_neg hzero] at hpattern
    rw [Exponent.value] at hvalue
    by_cases hneg : x.negative = true
    · rw [if_pos hneg] at hvalue
      rw [if_neg (by rw [Decimal.exponentBound]; omega),
        if_pos (by rw [Decimal.exponentBound]; omega)] at hpattern
      cases hpattern
      rw [if_neg (by simp [hneg])]
    · rw [if_neg hneg] at hvalue
      rw [if_pos (by rw [Decimal.exponentBound]; omega)] at hpattern
      cases hpattern

/-- The digits of a decimal that is read as a double are a numeral of it, however they are set
out. -/
theorem Scientific.SetsOut.value? (h : (Scientific.ofDecimal d hzero).SetsOut layout n)
    (hpattern : d.pattern? = some pattern) :
    n.value? = some (.float (Binary64.floatOfPattern n.negative pattern)) := by
  have hvalue := h.value.trans Scientific.value_ofDecimal
  rw [Numeral.value?, h.whole?_eq_none]
  cases h with
  | positional hrange hexponent h =>
    rw [Numeral.decimal, hexponent, Option.elim_none, Int.zero_sub] at hvalue
    rw [hexponent, scaled?, Decimal.nearest?_congr n.negative hvalue,
      Decimal.nearest?_of_pattern? n.negative hpattern]
    rfl
  | exponential x hrange hwhole hfraction hexponent hx =>
    have hsignificand : n.significand = d.digits := by
      rw [Scientific.SetsOut.significand_exponential hwhole hfraction, Scientific.digits_ofDecimal,
        digitsValue_digitChars]
    have hplaces : d.scientificExponent = d.exponent + n.fraction.length := by
      have hlength := Scientific.length_digits (s := Scientific.ofDecimal d hzero)
      rw [Scientific.digits_ofDecimal, ← hfraction] at hlength
      rw [Decimal.scientificExponent, hlength]
      omega
    rw [hexponent, hsignificand, scaled?_of_pattern? hx.value hplaces hpattern]
    rfl

theorem exists_numeral (hlayout : IsJsonLayout layout) (hpattern : d.pattern? = some pattern)
    (hzero : d.digits = 0 → d.exponent = 0) (negative : Bool) :
    ∃ n : Numeral, n.chars = signChars negative ++ Decimal.chars layout d ∧
      n.value? = some (.float (Binary64.floatOfPattern negative pattern)) := by
  obtain ⟨n, rfl, h⟩ := (Scientific.ofDecimal d hzero).exists_setsOut layout negative
  exact ⟨n, by rw [Numeral.chars, h.unsigned hlayout], h.value? hpattern⟩

theorem renders_floatChars (hlayout : IsJsonLayout layout) {x : Float} (hx : x.isFinite = true) :
    Renders (.float x) (floatChars layout x) := by
  obtain ⟨negative, pattern, hpattern, rfl⟩ := Binary64.exists_floatOfPattern hx
  obtain ⟨m, e, hparts, -⟩ := Binary64.ofPattern_eq_finite negative hpattern
  obtain ⟨n, hchars, hvalue⟩ := exists_numeral hlayout
    (Decimal.pattern?_shortest layout.tie hpattern hparts)
    (Decimal.exponent_shortest_of_digits_eq_zero layout.tie hpattern hparts) negative
  simp only [floatChars, Binary64.ofFloat_floatOfPattern hpattern, hparts, ← hchars]
  exact .number hvalue

theorem isJsonLayout_canonicalLayout : IsJsonLayout canonicalLayout :=
  ⟨rfl, .inr rfl⟩

end Calculator.Json
