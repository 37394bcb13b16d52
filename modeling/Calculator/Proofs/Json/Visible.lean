import Calculator.Proofs.Json.Canonical
import Calculator.Proofs.Text.Utf8
import Calculator.Text.Blank

/-!
# Visible texts

A reader of a document knows whether the next character stands in a string. Between its strings a
canonical text has visible characters only, and in them it has no controls and nothing beyond ASCII.
-/

namespace Calculator.Json

variable {v : Json} {c : Char} {s : String} {t u : List Char} {texts : List (List Char)} {n : Nat}

/-- Where a character of a document stands: between the strings, in a string, or behind a backslash
in a string. -/
inductive Place where
  | outside
  | inside
  | escaped
deriving DecidableEq, Repr

def Place.next : Place → Char → Place
  | .outside, c => if c = '"' then .inside else .outside
  | .inside, c => if c = '"' then .outside else if c = '\\' then .escaped else .inside
  | .escaped, _ => .inside

def outsideStrings : Place → List Char → List Char
  | _, [] => []
  | place, c :: cs =>
    if place = .outside ∧ c ≠ '"' then c :: outsideStrings (place.next c) cs
    else outsideStrings (place.next c) cs

theorem outsideStrings_append (place : Place) (t u : List Char) :
    outsideStrings place (t ++ u) = outsideStrings place t ++
      outsideStrings (t.foldl Place.next place) u := by
  induction t generalizing place with
  | nil => rfl
  | cons c t ih =>
    simp only [List.cons_append, outsideStrings, List.foldl_cons, ih]
    split <;> simp

/-- Whole strings between visible characters, all of it in ASCII without controls. -/
structure IsVisible (t : List Char) : Prop where
  ascii : ∀ c ∈ t, 0x20 ≤ c.toNat ∧ c.toNat < 0x80
  whole : t.foldl Place.next .outside = .outside
  visible : ∀ c ∈ outsideStrings .outside t, 0x20 < c.toNat

theorem isVisible_nil : IsVisible [] := by
  constructor <;> simp [outsideStrings]

theorem IsVisible.append (ht : IsVisible t) (hu : IsVisible u) : IsVisible (t ++ u) where
  ascii := List.forall_mem_append.2 ⟨ht.ascii, hu.ascii⟩
  whole := by rw [List.foldl_append, ht.whole, hu.whole]
  visible := by
    rw [outsideStrings_append, ht.whole]
    exact List.forall_mem_append.2 ⟨ht.visible, hu.visible⟩

theorem isVisible_char (hlower : 0x20 < c.toNat) (hupper : c.toNat < 0x80)
    (hquote : c ≠ '"') : IsVisible [c] := by
  constructor
  · simp [Nat.le_of_lt hlower, hupper]
  · simp [Place.next, hquote]
  · simp [outsideStrings, hquote, hlower]

theorem isVisible_chars (h : ∀ c ∈ t, 0x20 < c.toNat ∧ c.toNat < 0x80 ∧ c ≠ '"') : IsVisible t := by
  induction t with
  | nil => exact isVisible_nil
  | cons c t ih =>
    obtain ⟨hlower, hupper, hquote⟩ := h c List.mem_cons_self
    exact (isVisible_char hlower hupper hquote).append
      (ih fun d hd => h d (List.mem_cons_of_mem c hd))

theorem isVisible_intercalate (h : ∀ t ∈ texts, IsVisible t) :
    IsVisible ([','].intercalate texts) := by
  induction texts with
  | nil => exact isVisible_nil
  | cons t rest ih =>
    have ht := h t List.mem_cons_self
    cases rest with
    | nil => simpa using ht
    | cons u rest =>
      have hcomma : IsVisible [','] := isVisible_char (by decide) (by decide) (by decide)
      rw [List.intercalate_cons_cons]
      exact (ht.append hcomma).append (ih fun w hw => h w (List.mem_cons_of_mem t hw))

theorem isVisible_enclosed {opening closing : Char} (hopening : IsVisible [opening])
    (hclosing : IsVisible [closing])
    (h : ∀ t ∈ texts, IsVisible t) : IsVisible (opening :: [','].intercalate texts ++ [closing]) :=
  (hopening.append (isVisible_intercalate h)).append hclosing

structure StaysInside (t : List Char) : Prop where
  ascii : ∀ c ∈ t, 0x20 ≤ c.toNat ∧ c.toNat < 0x80
  inside : t.foldl Place.next .inside = .inside
  none_outside : outsideStrings .inside t = []

theorem StaysInside.append (ht : StaysInside t) (hu : StaysInside u) : StaysInside (t ++ u) where
  ascii := List.forall_mem_append.2 ⟨ht.ascii, hu.ascii⟩
  inside := by rw [List.foldl_append, ht.inside, hu.inside]
  none_outside := by rw [outsideStrings_append, ht.none_outside, ht.inside,
    hu.none_outside, List.append_nil]

theorem staysInside_char (hlower : 0x20 ≤ c.toNat) (hupper : c.toNat < 0x80)
    (hquote : c ≠ '"') (hslash : c ≠ '\\') :
    StaysInside [c] := by
  constructor
  · simp [hlower, hupper]
  · simp [Place.next, hquote, hslash]
  · simp [outsideStrings]

theorem staysInside_escape (hlower : 0x20 ≤ c.toNat) (hupper : c.toNat < 0x80) :
    StaysInside ['\\', c] := by
  constructor
  · simp [hlower, hupper]
  · simp [Place.next]
  · simp [Place.next, outsideStrings]

theorem staysInside_unit (hn : n < 0x10000) : StaysInside ('\\' :: 'u' :: unitDigits n) := by
  have hdigit : ∀ m < 16, StaysInside [Nat.digitChar m] := by
    intro m hm
    have hascii : ∀ m < 16, 0x20 ≤ (Nat.digitChar m).toNat ∧ (Nat.digitChar m).toNat < 0x80 ∧
        Nat.digitChar m ≠ '"' ∧ Nat.digitChar m ≠ '\\' := by decide
    obtain ⟨hlower, hupper, hquote, hslash⟩ := hascii m hm
    exact staysInside_char hlower hupper hquote hslash
  have hmark : StaysInside ['\\', 'u'] := staysInside_escape (by decide) (by decide)
  exact (((hmark.append (hdigit (n / 4096) (by omega))).append
    (hdigit (n / 256 % 16) (by omega))).append
    (hdigit (n / 16 % 16) (by omega))).append (hdigit (n % 16) (by omega))

theorem SpellsCanonically.staysInside (h : SpellsCanonically c t) : StaysInside t := by
  have hc := not_surrogate c
  cases h with
  | raw hquote hslash hlower hupper => exact staysInside_char hlower hupper hquote hslash
  | @letter e _ h =>
    have hascii : 0x20 ≤ e.toNat ∧ e.toNat < 0x80 := by
      unfold shortEscape? at h
      split at h
      all_goals first | decide | cases h
    exact staysInside_escape hascii.1 hascii.2
  | control h => exact staysInside_unit (by omega)
  | wide _ hupper => exact staysInside_unit hupper
  | pair h =>
    have hhigh : highSurrogate c < 0x10000 := by
      rw [highSurrogate]
      omega
    have hlow : lowSurrogate c < 0x10000 := by
      rw [lowSurrogate]
      omega
    exact (staysInside_unit hhigh).append (staysInside_unit hlow)

theorem staysInside_flatten {cs : List Char} (h : List.Forall₂ SpellsCanonically cs texts) :
    StaysInside texts.flatten := by
  induction h with
  | nil => constructor <;> simp [outsideStrings]
  | cons hc _ ih => exact hc.staysInside.append ih

theorem SpellsStringCanonically.isVisible (h : SpellsStringCanonically s t) : IsVisible t := by
  obtain ⟨h⟩ := h
  have hinner := staysInside_flatten h
  have hquote : 0x20 ≤ '"'.toNat ∧ '"'.toNat < 0x80 := by decide
  constructor
  · rw [List.cons_append, List.forall_mem_cons, List.forall_mem_append, List.forall_mem_singleton]
    exact ⟨hquote, hinner.ascii, hquote⟩
  · simp [Place.next, hinner.inside]
  · rw [List.cons_append, outsideStrings, if_neg (by simp), outsideStrings_append]
    simp [outsideStrings, Place.next, hinner.none_outside, hinner.inside]

theorem forall_texts {α : Type} {R : α → List Char → Prop} {as : List α}
    (h : List.Forall₂ R as texts)
    (hR : ∀ a ∈ as, ∀ t, R a t → IsVisible t) : ∀ t ∈ texts, IsVisible t := by
  induction h with
  | nil => exact fun t ht => absurd ht List.not_mem_nil
  | cons ha _ ih =>
    rw [List.forall_mem_cons]
    exact ⟨hR _ List.mem_cons_self _ ha, ih fun b hb => hR b (List.mem_cons_of_mem _ hb)⟩

def structureMarks : List Char := ['[', ']', '\x7b', '\x7d', ':']

theorem isVisible_structureMark (hc : c ∈ structureMarks) : IsVisible [c] := by
  have hmarks : ∀ c ∈ structureMarks, 0x20 < c.toNat ∧ c.toNat < 0x80 ∧ c ≠ '"' := by
    simp [structureMarks]
  obtain ⟨hlower, hupper, hquote⟩ := hmarks c hc
  exact isVisible_char hlower hupper hquote

theorem RendersCanonically.isVisible (h : RendersCanonically v t) : IsVisible t := by
  induction hdepth : v.depth using Nat.strong_induction_on generalizing v t with
  | _ depth ih =>
  subst hdepth
  cases h with
  | null | yes | no => exact isVisible_chars (by simp)
  | number h =>
    refine isVisible_chars fun c hc => ?_
    obtain ⟨hlower, hupper, hquote⟩ := Numeral.visible_of_mem_chars hc
    exact ⟨hlower, by omega, hquote⟩
  | string h => exact h.isVisible
  | array h =>
    refine isVisible_enclosed (isVisible_structureMark (by decide))
      (isVisible_structureMark (by decide)) (forall_texts h ?_)
    intro u hu t ht
    exact ih u.depth (depth_lt_array hu) ht rfl
  | object hkeys h =>
    refine isVisible_enclosed (isVisible_structureMark (by decide))
      (isVisible_structureMark (by decide)) (forall_texts h ?_)
    rintro m hm _ ⟨hkey, hv⟩
    have hcolon : IsVisible [':'] := isVisible_structureMark (by decide)
    exact hkey.isVisible.append (hcolon.append (ih _ (depth_lt_object hm) hv rfl))

theorem outsideStrings_sublist (place : Place) (t : List Char) :
    (outsideStrings place t).Sublist t := by
  induction t generalizing place with
  | nil => exact .slnil
  | cons c t ih =>
    unfold outsideStrings
    split
    · exact (ih (place.next c)).cons_cons c
    · exact (ih (place.next c)).cons c

theorem isBlank_of_visible (hlower : 0x20 < c.toNat) (hupper : c.toNat < 0x80) :
    Text.isBlank c = false := by
  rw [Text.isBlank, List.any_eq_false]
  simp only [Text.blankRanges, List.forall_mem_cons, Bool.and_eq_true, decide_eq_true_eq]
  simp
  omega

theorem IsVisible.isBlank_outside (h : IsVisible t) (hc : c ∈ outsideStrings .outside t) :
    Text.isBlank c = false :=
  isBlank_of_visible (h.visible c hc) (h.ascii c ((outsideStrings_sublist _ t).subset hc)).2

theorem IsVisible.encode_bounds (h : IsVisible t) :
    ∀ b ∈ Text.encode t, 0x20 ≤ b.toNat ∧ b.toNat ≤ 0x7f := by
  rw [Text.encode_of_ascii fun c hc => (h.ascii c hc).2, List.forall_mem_map]
  intro c hc
  obtain ⟨hlower, hupper⟩ := h.ascii c hc
  have hbyte : (UInt8.ofNat c.toNat).toNat = c.toNat := Text.toNat_lead c.toNat 0 (by omega)
  rw [hbyte]
  exact ⟨hlower, Nat.le_of_lt_succ hupper⟩

end Calculator.Json
