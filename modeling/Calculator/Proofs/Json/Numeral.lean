import Calculator.Json.Reader
import Mathlib.Data.List.Basic

/-!
# Numerals

A numeral is a number as the grammar spells it: digits without a superfluous zero in front, perhaps
with places behind a point and an exponent. A numeral that stands for a number is read as that
number, and reading stops right behind it.
-/

namespace Calculator.Json

variable {c : Char} {ds cs rest : List Char} {start : Nat}

theorem digitsValue_append (start : Nat) (ds cs : List Char) :
    digitsValue start (ds ++ cs) = digitsValue (digitsValue start ds) cs :=
  List.foldl_append

theorem le_digitsValue (start : Nat) (ds : List Char) : start ≤ digitsValue start ds := by
  induction ds generalizing start with
  | nil => exact Nat.le_refl _
  | cons c ds ih =>
    refine Nat.le_trans ?_ (ih (start * 10 + digitValue c))
    omega

/-- Text with which a number does not go on. -/
def EndsNumber (rest : List Char) : Prop :=
  ∀ c ∈ rest.head?, isDigit c = false ∧ c ≠ '.' ∧ c ≠ 'e' ∧ c ≠ 'E'

theorem endsNumber_nil : EndsNumber [] :=
  fun _ h => nomatch h

theorem endsNumber_cons (h : isDigit c = false ∧ c ≠ '.' ∧ c ≠ 'e' ∧ c ≠ 'E') :
    EndsNumber (c :: cs) := by
  rintro _ ⟨⟩
  exact h

def NoDigit (rest : List Char) : Prop :=
  ∀ c ∈ rest.head?, isDigit c = false

theorem EndsNumber.noDigit (h : EndsNumber rest) : NoDigit rest :=
  fun c hc => (h c hc).1

theorem noDigit_cons (h : isDigit c = false) : NoDigit (c :: cs) := by
  rintro _ ⟨⟩
  exact h

theorem takeWhile_isDigit_append (hds : ∀ c ∈ ds, isDigit c = true) (hrest : NoDigit rest) :
    (ds ++ rest).takeWhile isDigit = ds := by
  rw [List.takeWhile_append_of_pos hds]
  cases rest with
  | nil => simp
  | cons c rest => rw [List.takeWhile_cons_of_neg (by simp [hrest c rfl]), List.append_nil]

theorem dropWhile_isDigit_append (hds : ∀ c ∈ ds, isDigit c = true) (hrest : NoDigit rest) :
    (ds ++ rest).dropWhile isDigit = rest := by
  rw [List.dropWhile_append_of_pos hds]
  cases rest with
  | nil => rfl
  | cons c rest => rw [List.dropWhile_cons_of_neg (by simp [hrest c rfl])]

def markChars : Option Bool → List Char
  | none => []
  | some false => ['+']
  | some true => ['-']

structure Exponent where
  capital : Bool
  sign : Option Bool
  digits : List Char
  digits_ne_nil : digits ≠ []
  isDigit_of_mem : ∀ c ∈ digits, isDigit c = true

namespace Exponent

variable (e : Exponent)

def negative : Bool :=
  e.sign == some true

def magnitude : Nat :=
  digitsValue 0 e.digits

def chars : List Char :=
  (if e.capital then 'E' else 'e') :: markChars e.sign ++ e.digits

end Exponent

variable {negative exponentNegative : Bool} {digits : Nat} {exponent : Int} {x : Float}

/-- The double that digits times a power of ten stand for, with an exponent that may be written
behind them. An exponent beyond the limit leaves zero or nothing. -/
def scaled? (negative : Bool) (digits : Nat) (exponent : Int) : Option Exponent → Option Float
  | none => Decimal.nearest? negative ⟨digits, exponent⟩
  | some e =>
    if e.magnitude ≤ exponentLimit then
      Decimal.nearest? negative
        ⟨digits, if e.negative then exponent - e.magnitude else exponent + e.magnitude⟩
    else if digits ≠ 0 ∧ e.negative = false then none
    else some (Binary64.floatOfPattern negative 0)

def exponentChars? : Option Exponent → List Char
  | none => []
  | some e => e.chars

theorem readExponentDigits_finish (hx : (Decimal.nearest? negative
      ⟨digits, if exponentNegative then exponent - start else exponent + start⟩) = some x) :
    readExponentDigits.finish negative exponentNegative digits exponent start rest =
      .ok (.float x, rest) := by
  simp only [readExponentDigits.finish, hx]

theorem readExponentDigits_of_le (hds : ∀ c ∈ ds, isDigit c = true) (hrest : NoDigit rest)
    (h : digitsValue start ds ≤ exponentLimit) :
    readExponentDigits negative exponentNegative digits exponent start (ds ++ rest) =
      readExponentDigits.finish negative exponentNegative digits exponent
        (digitsValue start ds) rest := by
  induction ds generalizing start with
  | nil =>
    cases rest with
    | nil => rfl
    | cons c rest =>
      rw [List.nil_append, readExponentDigits, if_neg (by simp [hrest c rfl])]
      rfl
  | cons c ds ih =>
    have hstep : start * 10 + digitValue c ≤ exponentLimit := Nat.le_trans (le_digitsValue _ ds) h
    rw [List.cons_append, readExponentDigits, if_pos (hds c List.mem_cons_self), if_pos hstep]
    exact ih (fun d hd => hds d (List.mem_cons_of_mem c hd)) h

theorem readExponentDigits_of_lt (hds : ∀ c ∈ ds, isDigit c = true) (hrest : NoDigit rest)
    (hstart : start ≤ exponentLimit) (h : exponentLimit < digitsValue start ds)
    (hzero : ¬(digits ≠ 0 ∧ exponentNegative = false)) :
    readExponentDigits negative exponentNegative digits exponent start (ds ++ rest) =
      .ok (.float (Binary64.floatOfPattern negative 0), rest) := by
  induction ds generalizing start with
  | nil => exact absurd hstart (Nat.not_le.2 h)
  | cons c ds ih =>
    have hds' : ∀ d ∈ ds, isDigit d = true := fun d hd => hds d (List.mem_cons_of_mem c hd)
    rw [List.cons_append, readExponentDigits, if_pos (hds c List.mem_cons_self)]
    by_cases hstep : start * 10 + digitValue c ≤ exponentLimit
    · rw [if_pos hstep]
      exact ih hds' hstep h
    · rw [if_neg hstep, if_neg hzero, dropWhile_isDigit_append hds' hrest]

theorem digitValue_le (h : isDigit c = true) : digitValue c ≤ 9 := by
  simp only [isDigit, Bool.and_eq_true, decide_eq_true_eq] at h
  have hle : c.toNat ≤ '9'.toNat := h.2
  change c.toNat - 48 ≤ 9
  change c.toNat ≤ 57 at hle
  omega

theorem readExponent_markChars (e : Exponent) (hc : isDigit c = true) :
    readExponent negative digits exponent (markChars e.sign ++ c :: cs) =
      readExponentDigits negative e.negative digits exponent (digitValue c) cs := by
  obtain ⟨capital, sign, ds, hne, hds⟩ := e
  cases sign with
  | none =>
    have hplus : c ≠ '+' := by rintro rfl; exact absurd hc (by decide)
    have hminus : c ≠ '-' := by rintro rfl; exact absurd hc (by decide)
    simp [markChars, Exponent.negative, readExponent, hplus, hminus, hc]
  | some minus => cases minus <;> simp [markChars, Exponent.negative, readExponent, hc]

theorem readExponent_chars (e : Exponent) (hrest : NoDigit rest)
    (hx : scaled? negative digits exponent (some e) = some x) :
    readExponent negative digits exponent (markChars e.sign ++ e.digits ++ rest) =
      .ok (.float x, rest) := by
  obtain ⟨c, ds, hdigits⟩ := List.exists_cons_of_ne_nil e.digits_ne_nil
  have hall := e.isDigit_of_mem
  rw [hdigits] at hall
  have hc : isDigit c = true := hall c List.mem_cons_self
  have hds : ∀ d ∈ ds, isDigit d = true := fun d hd => hall d (List.mem_cons_of_mem c hd)
  have hfirst : digitValue c ≤ exponentLimit := Nat.le_trans (digitValue_le hc) (by decide)
  have hmagnitude : e.magnitude = digitsValue (digitValue c) ds := by
    simp [Exponent.magnitude, hdigits, digitsValue]
  rw [hdigits, List.append_assoc, List.cons_append, readExponent_markChars e hc]
  simp only [scaled?, hmagnitude] at hx
  split at hx
  · next hle => rw [readExponentDigits_of_le hds hrest hle, readExponentDigits_finish hx]
  · next hlt =>
    split at hx
    · cases hx
    · next hzero =>
      cases hx
      exact readExponentDigits_of_lt hds hrest hfirst (Nat.lt_of_not_le hlt) hzero

theorem readScale_chars (e : Option Exponent) (hrest : EndsNumber rest)
    (hx : scaled? negative digits exponent e = some x) :
    readScale negative digits exponent (exponentChars? e ++ rest) = .ok (.float x, rest) := by
  cases e with
  | none =>
    rw [exponentChars?, List.nil_append]
    have hnearest : Decimal.nearest? negative ⟨digits, exponent⟩ = some x := hx
    unfold readScale
    split
    · next rest' => exact absurd rfl (hrest 'e' rfl).2.2.1
    · next rest' => exact absurd rfl (hrest 'E' rfl).2.2.2
    · simp only [hnearest]
  | some e =>
    have hread := readExponent_chars e hrest.noDigit hx
    rw [exponentChars?, Exponent.chars, List.cons_append, List.cons_append]
    cases e.capital with
    | false => exact hread
    | true => exact hread

structure Numeral where
  negative : Bool
  whole : List Char
  fraction : List Char
  exponent : Option Exponent
  whole_ne_nil : whole ≠ []
  isDigit_of_mem_whole : ∀ c ∈ whole, isDigit c = true
  no_leading_zero : whole.head? = some '0' → whole = ['0']
  isDigit_of_mem_fraction : ∀ c ∈ fraction, isDigit c = true

namespace Numeral

variable (n : Numeral)

def fractionChars : List Char :=
  match n.fraction with
  | [] => []
  | ds => '.' :: ds

def unsigned : List Char :=
  n.whole ++ (n.fractionChars ++ exponentChars? n.exponent)

def chars : List Char :=
  signChars n.negative ++ n.unsigned

def significand : Nat :=
  digitsValue (digitsValue 0 n.whole) n.fraction

def whole? : Option Whole :=
  if n.fraction = [] ∧ n.exponent = none ∧ ¬(n.negative = true ∧ n.significand = 0) then
    Whole.ofInt? (if n.negative then -n.significand else n.significand)
  else none

/-- The value of a numeral, unless it is beyond the largest double. -/
def value? : Option Json :=
  match n.whole? with
  | some w => some (.whole w)
  | none => (scaled? n.negative n.significand (-n.fraction.length) n.exponent).map .float

end Numeral

variable {n : Numeral} {v : Json}

theorem EndsNumber.noDigit_exponent (hrest : EndsNumber rest) (e : Option Exponent) :
    NoDigit (exponentChars? e ++ rest) := by
  cases e with
  | none => exact hrest.noDigit
  | some e =>
    rw [exponentChars?, Exponent.chars]
    cases e.capital <;> exact noDigit_cons (by decide)

theorem EndsNumber.noDigit_fraction (hrest : EndsNumber rest) (n : Numeral) :
    NoDigit (n.fractionChars ++ (exponentChars? n.exponent ++ rest)) := by
  unfold Numeral.fractionChars
  split
  · exact hrest.noDigit_exponent n.exponent
  · exact noDigit_cons (by decide)

theorem readFraction_chars (hne : ds ≠ []) (hds : ∀ c ∈ ds, isDigit c = true) (e : Option Exponent)
    (hrest : EndsNumber rest)
    (hx : scaled? negative (digitsValue digits ds) (-ds.length) e = some x) :
    readFraction negative digits (ds ++ (exponentChars? e ++ rest)) = .ok (.float x, rest) := by
  have hnext := hrest.noDigit_exponent e
  simp only [readFraction, takeWhile_isDigit_append hds hnext, dropWhile_isDigit_append hds hnext]
  rw [if_neg (by simpa using hne)]
  exact readScale_chars e hrest hx

theorem readAfterDigits_eq (hrest : EndsNumber rest) :
    readAfterDigits negative digits rest =
      match Whole.ofInt? (if negative then -digits else digits) with
      | some w =>
        if negative ∧ digits = 0 then .ok (.float (Binary64.floatOfPattern true 0), rest)
        else .ok (.whole w, rest)
      | none => readScale negative digits 0 rest := by
  unfold readAfterDigits
  split
  · exact absurd rfl (hrest '.' rfl).2.1
  · exact absurd rfl (hrest 'e' rfl).2.2.1
  · exact absurd rfl (hrest 'E' rfl).2.2.2
  · rfl

theorem readAfterDigits_whole (hfraction : n.fraction = []) (hexponent : n.exponent = none)
    (hv : n.value? = some v) (hrest : EndsNumber rest) :
    readAfterDigits n.negative n.significand rest = .ok (v, rest) := by
  rw [readAfterDigits_eq hrest]
  simp only [Numeral.value?, Numeral.whole?, hfraction, hexponent, true_and, List.length_nil] at hv
  by_cases hzero : n.negative = true ∧ n.significand = 0
  · obtain ⟨hnegative, hsignificand⟩ := hzero
    have hwhole : Whole.ofInt? 0 = some ⟨0, by decide, by decide⟩ := rfl
    rw [hnegative, hsignificand, scaled?, Decimal.nearest?_zero] at hv
    cases hv
    simp [hnegative, hsignificand, hwhole]
  · rw [if_pos hzero] at hv
    cases hint : Whole.ofInt? (if n.negative then -n.significand else n.significand) with
    | none =>
      simp only [hint] at hv ⊢
      obtain ⟨x, hx, rfl⟩ := Option.map_eq_some_iff.1 hv
      exact readScale_chars none hrest hx
    | some w =>
      simp only [hint] at hv ⊢
      rw [if_neg hzero]
      cases hv
      rfl

theorem readAfterDigits_exponent (e : Exponent) (hrest : EndsNumber rest)
    (hx : scaled? negative digits 0 (some e) = some x) :
    readAfterDigits negative digits (e.chars ++ rest) = .ok (.float x, rest) := by
  have hscale := readScale_chars (some e) hrest hx
  rw [exponentChars?, Exponent.chars, List.cons_append, List.cons_append] at hscale
  rw [Exponent.chars, List.cons_append, List.cons_append]
  cases hcapital : e.capital with
  | false => simpa [hcapital, readAfterDigits, readScale] using hscale
  | true => simpa [hcapital, readAfterDigits, readScale] using hscale

theorem readAfterDigits_numeral (hv : n.value? = some v) (hrest : EndsNumber rest) :
    readAfterDigits n.negative (digitsValue 0 n.whole)
    (n.fractionChars ++ (exponentChars? n.exponent ++ rest)) =
      .ok (v, rest) := by
  cases hfraction : n.fraction with
  | nil =>
    have hsignificand : n.significand = digitsValue 0 n.whole := by
      simp [Numeral.significand, hfraction, digitsValue]
    rw [Numeral.fractionChars, hfraction, ← hsignificand]
    cases hexponent : n.exponent with
    | none => exact readAfterDigits_whole hfraction hexponent hv hrest
    | some e =>
      have hwhole : n.whole? = none := by simp [Numeral.whole?, hexponent]
      rw [Numeral.value?, hwhole, hfraction, hexponent] at hv
      obtain ⟨x, hx, rfl⟩ := Option.map_eq_some_iff.1 hv
      exact readAfterDigits_exponent e hrest hx
  | cons c ds =>
    have hwhole : n.whole? = none := by simp [Numeral.whole?, hfraction]
    rw [Numeral.value?, hwhole] at hv
    obtain ⟨x, hx, rfl⟩ := Option.map_eq_some_iff.1 hv
    have hds := n.isDigit_of_mem_fraction
    rw [Numeral.significand] at hx
    rw [hfraction] at hx hds
    rw [Numeral.fractionChars, hfraction]
    exact readFraction_chars (List.cons_ne_nil c ds) hds n.exponent hrest hx

theorem readNumber_numeral (hv : n.value? = some v) (hrest : EndsNumber rest) :
    readNumber n.negative (n.unsigned ++ rest) = .ok (v, rest) := by
  have hnext := hrest.noDigit_fraction n
  have hafter := readAfterDigits_numeral hv hrest
  have hwhole := n.isDigit_of_mem_whole
  rw [Numeral.unsigned, List.append_assoc, List.append_assoc]
  obtain ⟨c, ds, hcons⟩ := List.exists_cons_of_ne_nil n.whole_ne_nil
  by_cases hzero : c = '0'
  · have hsingle : n.whole = ['0'] := n.no_leading_zero (by rw [hcons, hzero, List.head?_cons])
    rw [hsingle] at hafter ⊢
    change readNumber n.negative
      ('0' :: (n.fractionChars ++ (exponentChars? n.exponent ++ rest))) = _
    simp only [readNumber, if_true]
    cases hrest' : n.fractionChars ++ (exponentChars? n.exponent ++ rest) with
    | nil => rwa [hrest'] at hafter
    | cons d tail =>
      rw [hrest'] at hnext hafter
      simp only [hnext d rfl]
      exact hafter
  · have hc : isDigit c = true := hwhole c (by rw [hcons]; exact List.mem_cons_self)
    have htake := takeWhile_isDigit_append hwhole hnext
    have hdrop := dropWhile_isDigit_append hwhole hnext
    rw [hcons] at hafter htake hdrop ⊢
    rw [List.cons_append] at htake hdrop ⊢
    simp only [readNumber, hzero, hc, if_false, if_true, htake, hdrop]
    exact hafter

theorem readScalar_numeral (hv : n.value? = some v) (hrest : EndsNumber rest) (fuel : Nat) :
    ∃ c cs, n.chars = c :: cs ∧ (c = '-' ∨ isDigit c = true) ∧
    readScalar fuel c (cs ++ rest) = .ok (v, rest) := by
  have hread := readNumber_numeral hv hrest
  cases hnegative : n.negative with
  | true =>
    refine ⟨'-', n.unsigned, by simp [Numeral.chars, signChars, hnegative], .inl rfl, ?_⟩
    rw [hnegative] at hread
    simpa [readScalar] using hread
  | false =>
    obtain ⟨c, ds, hcons⟩ := List.exists_cons_of_ne_nil n.whole_ne_nil
    have hc : isDigit c = true := n.isDigit_of_mem_whole c (by rw [hcons]; exact List.mem_cons_self)
    have hunsigned : n.unsigned = c :: (ds ++ (n.fractionChars ++ exponentChars? n.exponent)) := by
      rw [Numeral.unsigned, hcons, List.cons_append]
    have hother : ∀ d, isDigit d = false → c ≠ d := by
      rintro d hd rfl
      exact absurd hc (by simp [hd])
    refine ⟨c, ds ++ (n.fractionChars ++ exponentChars? n.exponent), ?_, .inr hc, ?_⟩
    · simp [Numeral.chars, signChars, hnegative, hunsigned]
    rw [hnegative, hunsigned] at hread
    rw [readScalar, if_neg (hother 'n' rfl), if_neg (hother 't' rfl), if_neg (hother 'f' rfl),
      if_neg (hother '-' rfl), if_pos hc]
    exact hread

theorem Numeral.value?_eq_some (hv : n.value? = some v) :
    (∃ w, v = .whole w) ∨ ∃ x, v = .float x := by
  unfold value? at hv
  split at hv
  · exact .inl ⟨_, (Option.some.inj hv).symm⟩
  · obtain ⟨x, -, rfl⟩ := Option.map_eq_some_iff.1 hv
    exact .inr ⟨x, rfl⟩

def numberMarks : List Char := ['-', '+', '.', 'e', 'E']

theorem mem_numberMarks_of_mem_signChars {negative : Bool} :
    ∀ c ∈ signChars negative, c ∈ numberMarks := by
  cases negative <;> simp [signChars, numberMarks]

theorem mem_numberMarks_of_mem_markChars {sign : Option Bool} :
    ∀ c ∈ markChars sign, c ∈ numberMarks := by
  rcases sign with _ | _ | _ <;> simp [markChars, numberMarks]

theorem isDigit_or_mark_of_mem_exponentChars? {e : Option Exponent} (hc : c ∈ exponentChars? e) :
    isDigit c = true ∨ c ∈ numberMarks := by
  cases e with
  | none => cases hc
  | some e =>
    rw [exponentChars?, Exponent.chars, List.cons_append, List.mem_cons, List.mem_append] at hc
    rcases hc with rfl | hmark | hdigit
    · cases e.capital <;> exact .inr (by decide)
    · exact .inr (mem_numberMarks_of_mem_markChars c hmark)
    · exact .inl (e.isDigit_of_mem c hdigit)

theorem Numeral.isDigit_or_mark_of_mem_fractionChars (hc : c ∈ n.fractionChars) :
    isDigit c = true ∨ c ∈ numberMarks := by
  unfold fractionChars at hc
  split at hc
  · cases hc
  · rcases List.mem_cons.1 hc with rfl | hdigit
    · exact .inr (by decide)
    · exact .inl (n.isDigit_of_mem_fraction c hdigit)

theorem Numeral.isDigit_or_mark_of_mem_chars (hc : c ∈ n.chars) :
    isDigit c = true ∨ c ∈ numberMarks := by
  rw [chars, unsigned, List.mem_append, List.mem_append, List.mem_append] at hc
  rcases hc with hsign | hwhole | hfraction | hexponent
  · exact .inr (mem_numberMarks_of_mem_signChars c hsign)
  · exact .inl (n.isDigit_of_mem_whole c hwhole)
  · exact isDigit_or_mark_of_mem_fractionChars hfraction
  · exact isDigit_or_mark_of_mem_exponentChars? hexponent

theorem Numeral.visible_of_mem_chars (hc : c ∈ n.chars) :
    0x20 < c.toNat ∧ c.toNat < 0x7f ∧ c ≠ '"' := by
  rcases isDigit_or_mark_of_mem_chars hc with hdigit | hmark
  · simp only [isDigit, Bool.and_eq_true, decide_eq_true_eq] at hdigit
    have hlower : 48 ≤ c.toNat := hdigit.1
    have hupper : c.toNat ≤ 57 := hdigit.2
    refine ⟨by omega, by omega, ?_⟩
    rintro rfl
    exact absurd hlower (by decide)
  · have hvisible : ∀ c ∈ numberMarks, 0x20 < c.toNat ∧ c.toNat < 0x7f ∧ c ≠ '"' := by
      simp [numberMarks]
    exact hvisible c hmark

theorem Numeral.isSpace_of_mem_chars (hc : c ∈ n.chars) : isSpace c = false := by
  obtain ⟨hlower, -, -⟩ := visible_of_mem_chars hc
  rw [Bool.eq_false_iff]
  intro hspace
  simp only [isSpace, Bool.or_eq_true, beq_iff_eq] at hspace
  rcases hspace with ((rfl | rfl) | rfl) | rfl <;> exact absurd hlower (by decide)

end Calculator.Json
