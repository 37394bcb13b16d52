import Calculator.Json.Writer
import Calculator.Proofs.Decimal.ReadBack
import Calculator.Proofs.Json.Numeral

/-!
# Digits set out as numerals

A number in scientific form has a first digit, further digits behind the point, and an exponent. A
layout sets its digits out as a numeral: around the point with the zeros that the exponent asks for,
or with the exponent behind them. Every digit keeps its weight, so the numeral stands for the same
number.
-/

namespace Calculator.Json

open Decimal (digitChars Layout)

variable {c : Char} {ds : List Char} {n start : Nat}

theorem digitsValue_eq_ofDigitChars (start : Nat) (ds : List Char) :
    digitsValue start ds = Nat.ofDigitChars 10 ds start := by
  rw [digitsValue, Nat.ofDigitChars_eq_foldl]
  congr 1
  funext n c
  rw [Nat.mul_comm]
  rfl

theorem digitsValue_digitChars (n : Nat) : digitsValue 0 (digitChars n) = n := by
  rw [digitsValue_eq_ofDigitChars, digitChars, Nat.ofDigitChars_ten_toDigits]

theorem digitsValue_zeros (start k : Nat) :
    digitsValue start (List.replicate k '0') = start * 10 ^ k := by
  rw [digitsValue_eq_ofDigitChars, Nat.ofDigitChars_replicate_zero, Nat.mul_comm]

theorem isDigit_of_mem_digitChars (hc : c ∈ digitChars n) : isDigit c = true := by
  have h := Nat.isDigit_of_mem_toDigits (by decide) (by decide) hc
  simpa [Char.isDigit, isDigit, Char.le_def] using h

theorem isDigit_of_mem_zeros {k : Nat} (hc : c ∈ List.replicate k '0') : isDigit c = true := by
  rw [List.eq_of_mem_replicate hc]
  rfl

theorem digitChars_ne_nil (n : Nat) : digitChars n ≠ [] :=
  List.ne_nil_of_length_pos Nat.length_toDigits_pos

theorem head?_digitChars (h : n ≠ 0) : (digitChars n).head? ≠ some '0' := by
  induction n using Nat.base_induction 10 (by decide) with
  | single m hm =>
    have hne : ∀ m < 10, m ≠ 0 → some (Nat.digitChar m) ≠ some '0' := by decide
    rw [digitChars, Nat.toDigits_of_lt_base hm]
    exact hne m hm h
  | digit m k hk hm ih =>
    rw [digitChars, ← Nat.toDigits_append_toDigits (by decide) hm hk,
      List.head?_append_of_ne_nil (Nat.toDigits 10 m) (digitChars_ne_nil m)]
    exact ih (Nat.ne_of_gt hm)

theorem digitChars_zero : digitChars 0 = ['0'] := rfl

structure Scientific where
  first : Char
  others : List Char
  exponent : Int
  isDigit_first : isDigit first = true
  isDigit_of_mem_others : ∀ c ∈ others, isDigit c = true
  eq_zero_of_first : first = '0' → others = [] ∧ exponent = 0

namespace Scientific

variable (s : Scientific)

def digits : List Char :=
  s.first :: s.others

def chars : List Char :=
  let point := if s.others = [] then [] else '.' :: s.others
  let sign := if s.exponent < 0 then ['-'] else []
  s.first :: point ++ 'e' :: sign ++ digitChars s.exponent.natAbs

def value : ℚ :=
  digitsValue 0 s.digits / 10 ^ s.others.length * 10 ^ s.exponent

theorem value_eq (s : Scientific) :
    s.value = Decimal.value ⟨digitsValue 0 s.digits, s.exponent - s.others.length⟩ := by
  rw [value, Decimal.value, zpow_sub₀ (by norm_num), zpow_natCast, div_mul_eq_mul_div,
    mul_div_assoc]

variable {s : Scientific}

theorem length_digits : s.digits.length = s.others.length + 1 :=
  List.length_cons

theorem isDigit_of_mem_digits (hc : c ∈ s.digits) : isDigit c = true := by
  rcases List.mem_cons.1 hc with rfl | hc
  · exact s.isDigit_first
  · exact s.isDigit_of_mem_others c hc

def ofDecimal (d : Decimal) (hzero : d.digits = 0 → d.exponent = 0) : Scientific where
  first := (digitChars d.digits).head (digitChars_ne_nil d.digits)
  others := (digitChars d.digits).tail
  exponent := d.scientificExponent
  isDigit_first := isDigit_of_mem_digitChars (List.head_mem _)
  isDigit_of_mem_others := fun _ hc => isDigit_of_mem_digitChars (List.mem_of_mem_tail hc)
  eq_zero_of_first := by
    intro hfirst
    have hdigits : d.digits = 0 := by
      refine Decidable.byContradiction fun hne => head?_digitChars hne ?_
      rw [List.head?_eq_some_head (digitChars_ne_nil d.digits), hfirst]
    simp [hdigits, hzero hdigits, Decimal.scientificExponent, digitChars_zero]

variable {d : Decimal} {hzero : d.digits = 0 → d.exponent = 0}

theorem digits_ofDecimal (d : Decimal) (hzero : d.digits = 0 → d.exponent = 0) :
    (ofDecimal d hzero).digits = digitChars d.digits :=
  List.cons_head_tail _

theorem exponent_ofDecimal :
    (ofDecimal d hzero).exponent = d.exponent + (digitChars d.digits).length - 1 := rfl

theorem value_ofDecimal : (ofDecimal d hzero).value = d.value := by
  have hlength := length_digits (s := ofDecimal d hzero)
  rw [digits_ofDecimal] at hlength
  rw [value_eq, digits_ofDecimal, digitsValue_digitChars, exponent_ofDecimal, hlength]
  congr 2
  omega

end Scientific

def Exponent.value (x : Exponent) : Int :=
  if x.negative then -x.magnitude else x.magnitude

def Numeral.decimal (n : Numeral) : Decimal :=
  ⟨n.significand, n.exponent.elim 0 Exponent.value - n.fraction.length⟩

theorem Numeral.fractionChars_of_ne_nil {n : Numeral} (h : n.fraction ≠ []) :
    n.fractionChars = '.' :: n.fraction := by
  unfold fractionChars
  split
  · next hnil => exact absurd hnil h
  · rfl

namespace Scientific

/-- The digits stand behind the point and zeros, on both sides of it, or in front of it with zeros
filled in. The counts of the digits in front of the point and of the zeros are those that the
exponent gives. -/
inductive Positional (s : Scientific) (n : Numeral) : Prop
  | behind (zeros : Nat) (hzeros : (zeros + 1 : Int) = -s.exponent) (hwhole : n.whole = ['0'])
    (hfraction : n.fraction = List.replicate zeros '0' ++ s.digits)
  | split (hlength : (n.whole.length : Int) = s.exponent + 1)
      (hdigits : n.whole ++ n.fraction = s.digits)
    (hfraction : n.fraction ≠ [])
  | filled (zeros : Nat) (hzeros : (s.digits.length + zeros : Int) = s.exponent + 1)
    (hwhole : n.whole = s.digits ++ List.replicate zeros '0') (hfraction : n.fraction = ['0'])

variable {s : Scientific} {n : Numeral} {d : Decimal} {hzero : d.digits = 0 → d.exponent = 0}

theorem exists_behind (s : Scientific) (negative : Bool) (zeros : Nat)
    (hzeros : (zeros + 1 : Int) = -s.exponent) :
    ∃ n : Numeral, n.negative = negative ∧ n.exponent = none ∧ s.Positional n := by
  refine ⟨⟨negative, ['0'], List.replicate zeros '0' ++ s.digits, none, ?_, ?_, ?_, ?_⟩, rfl, rfl,
    .behind zeros hzeros rfl rfl⟩
  · exact List.cons_ne_nil _ _
  · simp [isDigit]
  · exact fun _ => rfl
  · intro c hc
    exact (List.mem_append.1 hc).elim isDigit_of_mem_zeros isDigit_of_mem_digits

theorem exists_split (s : Scientific) (negative : Bool) {places : Nat}
    (hplaces : (places : Int) = s.exponent + 1)
    (hpos : 0 < places) (hlt : places < s.digits.length) :
    ∃ n : Numeral, n.negative = negative ∧ n.exponent = none ∧ s.Positional n := by
  refine ⟨⟨negative, s.digits.take places, s.digits.drop places, none, ?_, ?_, ?_, ?_⟩, rfl, rfl,
    .split ?_ (List.take_append_drop _ _) ?_⟩
  · simp only [ne_eq, List.take_eq_nil_iff, not_or]
    exact ⟨Nat.ne_of_gt hpos, List.cons_ne_nil _ _⟩
  · exact fun c hc => isDigit_of_mem_digits (List.mem_of_mem_take hc)
  · -- A first digit of zero is the only one, so nothing would be left behind the point.
    intro hhead
    rw [List.head?_take, if_neg (Nat.ne_of_gt hpos)] at hhead
    have hothers := (s.eq_zero_of_first (Option.some.inj hhead)).1
    rw [length_digits, hothers, List.length_nil] at hlt
    omega
  · exact fun c hc => isDigit_of_mem_digits (List.mem_of_mem_drop hc)
  · rw [List.length_take]
    omega
  · rw [ne_eq, List.drop_eq_nil_iff]
    omega

theorem exists_filled (s : Scientific) (negative : Bool) (zeros : Nat)
    (hzeros : (s.digits.length + zeros : Int) = s.exponent + 1) :
    ∃ n : Numeral, n.negative = negative ∧ n.exponent = none ∧ s.Positional n := by
  refine ⟨⟨negative, s.digits ++ List.replicate zeros '0', ['0'], none, ?_, ?_, ?_, ?_⟩, rfl, rfl,
    .filled zeros hzeros rfl rfl⟩
  · exact List.append_ne_nil_of_left_ne_nil (List.cons_ne_nil _ _) _
  · intro c hc
    exact (List.mem_append.1 hc).elim isDigit_of_mem_digits isDigit_of_mem_zeros
  · -- Zero is a single digit, which is not filled up.
    intro hhead
    obtain ⟨hothers, hexponent⟩ := s.eq_zero_of_first (Option.some.inj hhead)
    rw [length_digits, hothers, List.length_nil, hexponent] at hzeros
    have hnone : zeros = 0 := by omega
    rw [digits, hothers, hnone, Option.some.inj hhead]
    rfl
  · simp [isDigit]

theorem exists_positional (s : Scientific) (negative : Bool) :
    ∃ n : Numeral, n.negative = negative ∧ n.exponent = none ∧ s.Positional n := by
  by_cases hbehind : s.exponent < 0
  · exact s.exists_behind negative (-s.exponent - 1).toNat (by omega)
  have hplaces : ((s.exponent + 1).toNat : Int) = s.exponent + 1 := by omega
  by_cases hsplit : (s.exponent + 1).toNat < s.digits.length
  · exact s.exists_split negative hplaces (by omega) hsplit
  · exact s.exists_filled negative ((s.exponent + 1).toNat - s.digits.length) (by omega)

theorem Positional.fraction_ne_nil (h : s.Positional n) : n.fraction ≠ [] := by
  cases h with
  | behind zeros hzeros hwhole hfraction =>
    rw [hfraction]
    exact List.append_ne_nil_of_right_ne_nil _ (List.cons_ne_nil _ _)
  | split hlength hdigits hfraction => exact hfraction
  | filled zeros hzeros hwhole hfraction =>
    rw [hfraction]
    exact List.cons_ne_nil _ _

theorem Positional.value (h : s.Positional n) (hexponent : n.exponent = none) :
    n.decimal.value = s.value := by
  rw [value_eq, Numeral.decimal, hexponent, Option.elim_none, Numeral.significand]
  have hdigits := s.length_digits
  cases h with
  | behind zeros hzeros hwhole hfraction =>
    have hsignificand :
        digitsValue (digitsValue 0 n.whole) n.fraction = digitsValue 0 s.digits := by
      rw [hwhole, hfraction, digitsValue_append, digitsValue_zeros]
      exact congrArg (digitsValue · s.digits) (Nat.zero_mul _)
    have hlength : (0 - n.fraction.length : Int) = s.exponent - s.others.length := by
      rw [hfraction, List.length_append, List.length_replicate]
      omega
    rw [hsignificand, hlength]
  | split hlength hparts hfraction =>
    have hsignificand :
        digitsValue (digitsValue 0 n.whole) n.fraction = digitsValue 0 s.digits := by
      rw [← digitsValue_append, hparts]
    have hplaces := congrArg List.length hparts
    rw [List.length_append] at hplaces
    have hlength' : (0 - n.fraction.length : Int) = s.exponent - s.others.length := by omega
    rw [hsignificand, hlength']
  | filled zeros hzeros hwhole hfraction =>
    have hsignificand : digitsValue (digitsValue 0 n.whole) n.fraction =
        digitsValue 0 s.digits * 10 ^ (zeros + 1) := by
      rw [hwhole, hfraction, digitsValue_append, digitsValue_zeros, Nat.pow_succ, ← Nat.mul_assoc]
      rfl
    have hexponent' : s.exponent - s.others.length = zeros := by omega
    have hlength : (0 - n.fraction.length : Int) = zeros - (zeros + 1 : ℕ) := by
      rw [hfraction, List.length_singleton]
      omega
    rw [hsignificand, hexponent', hlength, Decimal.value_shift]

theorem Positional.unsigned (h : (ofDecimal d hzero).Positional n) (hexponent : n.exponent = none) :
    n.unsigned = Decimal.positionalChars true d := by
  rw [Numeral.unsigned, Numeral.fractionChars_of_ne_nil h.fraction_ne_nil,
    hexponent, exponentChars?, List.append_nil]
  have hpos : 0 < (digitChars d.digits).length :=
    List.length_pos_of_ne_nil (digitChars_ne_nil d.digits)
  unfold Decimal.positionalChars
  cases h with
  | behind zeros hzeros hwhole hfraction =>
    rw [exponent_ofDecimal] at hzeros
    rw [digits_ofDecimal] at hfraction
    have hplaces : (-d.exponent).toNat = zeros + (digitChars d.digits).length := by omega
    have hnegative : ¬0 ≤ d.exponent := by omega
    have hfew : ¬zeros + (digitChars d.digits).length < (digitChars d.digits).length := by omega
    simp only [hnegative, hplaces, hfew, hwhole, hfraction, if_false, Nat.add_sub_cancel]
    rfl
  | split hlength hdigits hfraction =>
    rw [exponent_ofDecimal] at hlength
    rw [digits_ofDecimal] at hdigits
    have hsum := congrArg List.length hdigits
    rw [List.length_append] at hsum
    have hwhole := List.length_pos_of_ne_nil n.whole_ne_nil
    have hbehind := List.length_pos_of_ne_nil hfraction
    have hplaces : (-d.exponent).toNat = n.fraction.length := by omega
    have hnegative : ¬0 ≤ d.exponent := by omega
    have hmany : n.fraction.length < n.whole.length + n.fraction.length := by omega
    simp only [hnegative, hplaces, ← hdigits, List.length_append, hmany,
      if_true, if_false, Nat.add_sub_cancel, List.take_left, List.drop_left]
  | filled zeros hzeros hwhole hfraction =>
    rw [digits_ofDecimal, exponent_ofDecimal] at hzeros
    rw [digits_ofDecimal] at hwhole
    have hexponent' : d.exponent = zeros := by omega
    simp only [hexponent', hwhole, hfraction, Int.natCast_nonneg, Int.toNat_natCast, if_true]

end Scientific

structure IsJsonLayout (layout : Layout) : Prop where
  keepPoint : layout.keepPoint = true
  plusSign : layout.plusSign = [] ∨ layout.plusSign = ['+']

structure WritesExponent (layout : Layout) (e : Int) (x : Exponent) : Prop where
  capital : x.capital = false
  sign : x.sign = if e < 0 then some true else if layout.plusSign = [] then none else some false
  digits : x.digits =
    List.replicate (layout.exponentWidth - (digitChars e.natAbs).length) '0' ++ digitChars e.natAbs

variable {layout : Layout} {e : Int} {x : Exponent}

theorem exists_writesExponent (layout : Layout) (e : Int) : ∃ x, WritesExponent layout e x := by
  refine ⟨⟨false, _, List.replicate (layout.exponentWidth - (digitChars e.natAbs).length) '0' ++
    digitChars e.natAbs, ?_, ?_⟩, rfl, rfl, rfl⟩
  · exact List.append_ne_nil_of_right_ne_nil _ (digitChars_ne_nil _)
  · intro c hc
    exact (List.mem_append.1 hc).elim isDigit_of_mem_zeros isDigit_of_mem_digitChars

namespace WritesExponent

theorem negative (h : WritesExponent layout e x) : x.negative = decide (e < 0) := by
  rw [Exponent.negative, h.sign]
  split
  · next hneg => simp [hneg]
  · next hneg => split <;> simp [hneg]

theorem magnitude (h : WritesExponent layout e x) : x.magnitude = e.natAbs := by
  rw [Exponent.magnitude, h.digits, digitsValue_append, digitsValue_zeros,
    Nat.zero_mul, digitsValue_digitChars]

theorem value (h : WritesExponent layout e x) : x.value = e := by
  rw [Exponent.value, h.negative, h.magnitude]
  by_cases hneg : e < 0
  · simp only [hneg, decide_true, if_true]
    omega
  · simp only [hneg, decide_false, Bool.false_eq_true, if_false]
    omega

theorem width_le (h : WritesExponent layout e x) : layout.exponentWidth ≤ x.digits.length := by
  rw [h.digits, List.length_append, List.length_replicate]
  omega

theorem chars (h : WritesExponent layout e x) (hlayout : IsJsonLayout layout) :
    x.chars = Decimal.exponentChars layout e := by
  have hmark : markChars x.sign = if e < 0 then ['-'] else layout.plusSign := by
    rw [h.sign]
    split
    · rfl
    · rcases hlayout.plusSign with hplus | hplus <;> simp [hplus, markChars]
  simp [Exponent.chars, Decimal.exponentChars, h.capital, hmark, h.digits]

end WritesExponent

def IsPositional (layout : Layout) (e : Int) : Prop :=
  ∀ range ∈ layout.positional, range.1 ≤ e ∧ e ≤ range.2

variable {d : Decimal} {hzero : d.digits = 0 → d.exponent = 0} {s : Scientific}
  {n : Numeral} {pattern : Nat}

theorem chars_of_isPositional (h : IsPositional layout d.scientificExponent) :
    Decimal.chars layout d = Decimal.positionalChars layout.keepPoint d := by
  unfold Decimal.chars
  split
  · rfl
  · next least greatest hrange =>
    have hbounds := h _ hrange
    simp [hbounds]

theorem chars_of_not_isPositional (h : ¬IsPositional layout d.scientificExponent) :
    Decimal.chars layout d = Decimal.scientificChars layout d := by
  unfold Decimal.chars
  split
  · next hrange => exact absurd (fun range hmem => by simp [hrange] at hmem) h
  · next least greatest hrange =>
    simp only [IsPositional, hrange, Option.mem_some_iff, forall_eq'] at h
    simp [h]

namespace Scientific

/-- A number in scientific form as a numeral of a layout: the place of the point tells the exponent,
or it is written behind the digits. -/
inductive SetsOut (layout : Layout) (s : Scientific) (n : Numeral) : Prop
  | positional (hrange : IsPositional layout s.exponent) (hexponent : n.exponent = none)
      (h : s.Positional n)
  | exponential (x : Exponent) (hrange : ¬IsPositional layout s.exponent)
      (hwhole : n.whole = [s.first])
    (hfraction : n.fraction = s.others) (hexponent : n.exponent = some x)
      (hx : WritesExponent layout s.exponent x)

theorem exists_setsOut (layout : Layout) (s : Scientific) (negative : Bool) :
    ∃ n : Numeral, n.negative = negative ∧ s.SetsOut layout n := by
  by_cases hrange : IsPositional layout s.exponent
  · obtain ⟨n, hnegative, hexponent, h⟩ := s.exists_positional negative
    exact ⟨n, hnegative, .positional hrange hexponent h⟩
  · obtain ⟨x, hx⟩ := exists_writesExponent layout s.exponent
    refine ⟨⟨negative, [s.first], s.others, some x, ?_, ?_, ?_, ?_⟩,
      rfl, .exponential x hrange rfl rfl rfl hx⟩
    · exact List.cons_ne_nil _ _
    · simpa using s.isDigit_first
    · intro hhead
      rw [Option.some.inj hhead]
    · exact s.isDigit_of_mem_others

namespace SetsOut

theorem exponent_eq_none_iff (h : s.SetsOut layout n) :
    n.exponent = none ↔ IsPositional layout s.exponent := by
  cases h with
  | positional hrange hexponent h => simp [hexponent, hrange]
  | exponential x hrange hwhole hfraction hexponent hx => simp [hexponent, hrange]

theorem writesExponent (h : s.SetsOut layout n) (hexponent : n.exponent = some x) :
    WritesExponent layout s.exponent x := by
  cases h with
  | positional hrange hnone h => simp [hexponent] at hnone
  | exponential x' hrange hwhole hfraction hsome hx =>
    rw [hexponent, Option.some.injEq] at hsome
    exact hsome ▸ hx

theorem significand_exponential (hwhole : n.whole = [s.first]) (hfraction : n.fraction = s.others) :
    n.significand = digitsValue 0 s.digits := by
  rw [Numeral.significand, hwhole, hfraction, ← digitsValue_append]
  rfl

theorem value (h : s.SetsOut layout n) : n.decimal.value = s.value := by
  cases h with
  | positional hrange hexponent h => exact h.value hexponent
  | exponential x hrange hwhole hfraction hexponent hx =>
    rw [value_eq, Numeral.decimal, significand_exponential hwhole hfraction,
      hexponent, Option.elim_some, hx.value, hfraction]

theorem unsigned (hlayout : IsJsonLayout layout) (h : (ofDecimal d hzero).SetsOut layout n) :
    n.unsigned = Decimal.chars layout d := by
  cases h with
  | positional hrange hexponent h =>
    rw [chars_of_isPositional hrange, hlayout.keepPoint, h.unsigned hexponent]
  | exponential x hrange hwhole hfraction hexponent hx =>
    have hdigits := digits_ofDecimal d hzero
    rw [chars_of_not_isPositional hrange, Decimal.scientificChars, ← hdigits,
      Numeral.unsigned, Numeral.fractionChars,
      hwhole, hfraction, hexponent, exponentChars?, hx.chars hlayout]
    exact (List.append_assoc _ _ _).symm

theorem whole?_eq_none (h : s.SetsOut layout n) : n.whole? = none := by
  cases h with
  | positional hrange hexponent h => simp [Numeral.whole?, h.fraction_ne_nil]
  | exponential x hrange hwhole hfraction hexponent hx => simp [Numeral.whole?, hexponent]

end SetsOut

end Scientific

end Calculator.Json
