import Calculator.Proofs.Outcome
import Calculator.Units.Conversion
import Mathlib

/-!
# Exact conversion

Over the rationals the rule of each unit is an increasing map with an inverse, so a conversion can
be undone, leads on to a third unit as the direct way does, and keeps the order of numbers. Whether
a temperature is refused depends on the temperature alone, whatever unit it comes in and goes to.
-/

namespace Calculator

variable {family : UnitFamily} {source target : String} {u v : UnitEntry ℚ} {x y : ℚ}

namespace ConversionRule

variable {rule : ConversionRule ℚ}

/-- A rule that turns more of its unit into more of the base unit. -/
structure IsIncreasing (rule : ConversionRule ℚ) : Prop where
  numerator_pos : 0 < rule.numerator
  denominator_pos : 0 < rule.denominator

namespace IsIncreasing

variable (h : rule.IsIncreasing)

include h

theorem fromBase_toBase (x : ℚ) : rule.fromBase (rule.toBase x) = x := by
  have hnumerator := h.numerator_pos.ne'
  have hdenominator := h.denominator_pos.ne'
  rw [fromBase, toBase]
  field_simp
  ring

theorem toBase_fromBase (base : ℚ) : rule.toBase (rule.fromBase base) = base := by
  have hnumerator := h.numerator_pos.ne'
  have hdenominator := h.denominator_pos.ne'
  rw [fromBase, toBase]
  field_simp
  ring

theorem strictMono_toBase : StrictMono rule.toBase := by
  intro x y hxy
  rw [toBase, toBase]
  have hnumerator := h.numerator_pos
  have hdenominator := h.denominator_pos
  gcongr

theorem strictMono_fromBase : StrictMono rule.fromBase := by
  intro x y hxy
  rw [fromBase, fromBase]
  have hnumerator := h.numerator_pos
  have hdenominator := h.denominator_pos
  gcongr

end IsIncreasing

end ConversionRule

namespace UnitFamily

theorem mem_of_resolve (h : family.resolve source = .ok u) : u ∈ units family := by
  rw [resolve] at h
  split at h
  · next hfind =>
    cases h
    exact List.mem_of_find?_eq_some hfind
  · cases h

theorem isIncreasing_of_mem (h : u ∈ units family) : u.rule.IsIncreasing := by
  have hrules : ∀ w ∈ units (α := ℚ) family, 0 < w.rule.numerator ∧ 0 < w.rule.denominator := by
    cases family <;> decide +kernel
  exact ⟨(hrules u h).1, (hrules u h).2⟩

theorem eq_of_name_eq (hu : u ∈ units family) (hv : v ∈ units family)
    (h : u.name = v.name) : u = v := by
  have hnames : ((units family).map (fun w : UnitEntry ℚ => w.name)).Nodup := by
    cases family <;> decide
  exact List.inj_on_of_nodup_map hnames hu hv h

def absoluteZero? : String → Option (ℚ × ℚ)
  | "celsius" => some (-273.15, 1)
  | "fahrenheit" => some (-459.67, 1.8)
  | "kelvin" => some (0, 1)
  | _ => none

/-- Whether a temperature is below absolute zero by more than a billionth of a degree Celsius. -/
def IsTooCold (unit : String) (x : ℚ) : Prop :=
  ∃ zero degree, absoluteZero? unit = some (zero, degree) ∧ x < zero - 1e-9 * degree

theorem isTooCold_iff {zero degree : ℚ} (unit : String)
    (h : absoluteZero? unit = some (zero, degree)) :
    IsTooCold unit x ↔ x < zero - 1e-9 * degree := by
  constructor
  · rintro ⟨zero', degree', h', hlt⟩
    cases h.symm.trans h'
    exact hlt
  · exact fun hlt => ⟨zero, degree, h, hlt⟩

theorem toBase_lt_coldest_iff (h : u ∈ units .temperature) :
    u.rule.toBase x < coldest ↔ IsTooCold u.name x := by
  rw [units, temperatureUnits, List.mem_cons, List.mem_cons, List.mem_singleton] at h
  rcases h with rfl | rfl | rfl
  · rw [isTooCold_iff "celsius" rfl, ConversionRule.toBase, ConversionRule.linear, coldest]
    norm_num
  · rw [isTooCold_iff "fahrenheit" rfl, ConversionRule.toBase, coldest]
    norm_num
    constructor <;> intro hlt <;> linarith
  · rw [isTooCold_iff "kelvin" rfl, ConversionRule.toBase, coldest]
    norm_num

def IsRefused (family : UnitFamily) (unit : String) (x : ℚ) : Prop :=
  family = .temperature ∧ IsTooCold unit x

theorem isRefused_iff (h : u ∈ units family) :
    family.IsRefused u.name x ↔ family = .temperature ∧ u.rule.toBase x < coldest := by
  constructor
  · rintro ⟨rfl, hcold⟩
    exact ⟨rfl, (toBase_lt_coldest_iff h).2 hcold⟩
  · rintro ⟨rfl, hlt⟩
    exact ⟨rfl, (toBase_lt_coldest_iff h).1 hlt⟩

theorem isRefused_fromBase_iff (hu : u ∈ units family) (hv : v ∈ units family) :
    family.IsRefused v.name (v.rule.fromBase (u.rule.toBase x)) ↔ family.IsRefused u.name x := by
  rw [isRefused_iff hv, (isIncreasing_of_mem hv).toBase_fromBase, isRefused_iff hu]

theorem not_isRefused_of_lt (hu : u ∈ units family) (h : ¬family.IsRefused u.name x) (hlt : x < y) :
    ¬family.IsRefused u.name y := by
  rw [isRefused_iff hu] at h ⊢
  rintro ⟨hfamily, hcold⟩
  exact h ⟨hfamily, ((isIncreasing_of_mem hu).strictMono_toBase hlt).trans hcold⟩

def refuseExact (x : ℚ) (unit : String) : Failure :=
  .domain (.belowAbsoluteZero (Binary64.floatOfRatio (x < 0) x.num.natAbs x.den) unit)

/-- Converts a rational number, none of which is too large. -/
def convertExact (family : UnitFamily) (x : ℚ) (source target : String) : Outcome (Conversion ℚ) :=
  family.convertWith refuseExact .ok x source target

theorem convertExact_of_isRefused (hsource : family.resolve source = .ok u)
    (htarget : family.resolve target = .ok v)
    (h : family.IsRefused u.name x) : convertExact family x source target =
      .error (refuseExact x u.name) := by
  rw [convertExact, convertWith, hsource, htarget]
  exact if_pos ((isRefused_iff (mem_of_resolve hsource)).1 h)

theorem convertExact_of_not_isRefused (hsource : family.resolve source = .ok u)
    (htarget : family.resolve target = .ok v) (h : ¬family.IsRefused u.name x) :
    convertExact family x source target = .ok ⟨v.rule.fromBase (u.rule.toBase x),
      u.name, v.name⟩ := by
  have hu := mem_of_resolve hsource
  rw [isRefused_iff hu] at h
  rw [convertExact, convertWith, hsource, htarget]
  refine (if_neg h).trans ?_
  split
  · next hname =>
    rw [← eq_of_name_eq hu (mem_of_resolve htarget) hname, (isIncreasing_of_mem hu).fromBase_toBase]
  · rfl

/-- Conversion from a unit to a second one. Only temperatures below absolute zero are refused,
whatever the second unit is. Any other number has a counterpart in the second unit, which leads back
to the number and on to any third unit as the number itself does, is the number where the units are
the same, and grows with the number. -/
theorem convertExact_consistent (hsource : family.resolve source = .ok u)
    (htarget : family.resolve target = .ok v) (x : ℚ) :
    ((∃ fault, convertExact family x source target = .error (.domain fault)) ↔
      family.IsRefused u.name x) ∧
      (¬family.IsRefused u.name x → ∃ y,
        convertExact family x source target = .ok ⟨y, u.name, v.name⟩ ∧
        convertExact family y target source = .ok ⟨x, v.name, u.name⟩ ∧
        (∀ other (w : UnitEntry ℚ), family.resolve other = .ok w → ∃ z,
          convertExact family y target other = .ok ⟨z, v.name, w.name⟩ ∧
            convertExact family x source other = .ok ⟨z, u.name, w.name⟩) ∧
        (u.name = v.name → y = x) ∧
        ∀ x', x < x' →
          ∃ y', convertExact family x' source target = .ok ⟨y', u.name, v.name⟩ ∧ y < y') := by
  have hu := mem_of_resolve hsource
  have hv := mem_of_resolve htarget
  have hincreasing := isIncreasing_of_mem hu
  refine ⟨⟨?refused_of_fault, ?fault_of_refused⟩, ?accepted⟩
  case refused_of_fault =>
    rintro ⟨fault, hfault⟩
    by_contra haccepted
    cases (convertExact_of_not_isRefused hsource htarget haccepted).symm.trans hfault
  case fault_of_refused =>
    exact fun hrefused => ⟨_, convertExact_of_isRefused hsource htarget hrefused⟩
  case accepted =>
    intro haccepted
    have himage := mt (isRefused_fromBase_iff hu hv).1 haccepted
    refine ⟨v.rule.fromBase (u.rule.toBase x),
      convertExact_of_not_isRefused hsource htarget haccepted, ?back, ?onward, ?same, ?larger⟩
    case back =>
      rw [convertExact_of_not_isRefused htarget hsource himage,
        (isIncreasing_of_mem hv).toBase_fromBase, hincreasing.fromBase_toBase]
    case onward =>
      intro other w hother
      refine ⟨w.rule.fromBase (u.rule.toBase x), ?_,
        convertExact_of_not_isRefused hsource hother haccepted⟩
      rw [convertExact_of_not_isRefused htarget hother himage,
        (isIncreasing_of_mem hv).toBase_fromBase]
    case same =>
      intro hname
      rw [← eq_of_name_eq hu hv hname, hincreasing.fromBase_toBase]
    case larger =>
      intro x' hlt
      exact ⟨_, convertExact_of_not_isRefused hsource htarget
        (not_isRefused_of_lt hu haccepted hlt),
        (isIncreasing_of_mem hv).strictMono_fromBase (hincreasing.strictMono_toBase hlt)⟩

theorem convertExact_consistent_boiling : ∃ u v : UnitEntry ℚ,
    temperature.resolve " °F " = .ok u ∧ temperature.resolve "K" = .ok v ∧
      ¬temperature.IsRefused u.name 212 ∧
      ∃ y, convertExact .temperature 212 " °F " "K" = .ok ⟨y, u.name, v.name⟩ ∧
        convertExact .temperature y "K" " °F " = .ok ⟨212, v.name, u.name⟩ := by
  have hsource : temperature.resolve (α := ℚ) " °F " =
    .ok ⟨"fahrenheit", ["f", "°f"], ⟨-32.0, 5.0, 9.0⟩⟩ := by rfl
  have htarget : temperature.resolve (α := ℚ) "K" =
    .ok ⟨"kelvin", ["k"], ⟨-273.15, 1.0, 1.0⟩⟩ := by rfl
  have haccepted : ¬temperature.IsRefused "fahrenheit" 212 := by
    rintro ⟨-, hcold⟩
    rw [isTooCold_iff "fahrenheit" rfl] at hcold
    norm_num at hcold
  obtain ⟨y, hy, hback, -⟩ := (convertExact_consistent hsource htarget 212).2 haccepted
  exact ⟨_, _, hsource, htarget, haccepted, y, hy, hback⟩

end UnitFamily

end Calculator
