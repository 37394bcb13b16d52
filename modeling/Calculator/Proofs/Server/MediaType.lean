import Calculator.Server.MediaType
import Mathlib.Data.List.DropRight
import Mathlib.Tactic.SplitIfs

/-!
# The grammar of media types

A content type is read exactly if it is a type and a subtype, words with a slash between them, with
nothing or with parameters behind them. A parameter has a word as its name and a word or quoted
characters as its value, and only the last one may have no value. Blanks around a content type and
the case of its letters do not matter.
-/

namespace Calculator.Server.MediaType

variable {place place' : Place} {c : Char} {cs name value rest type subtype : List Char}
  {s : String} {m : MediaType}

def IsWord (cs : List Char) : Prop :=
  ∀ c ∈ cs, isTokenChar c = true

def blanks (n : Nat) : List Char :=
  List.replicate n ' '

inductive IsValue : List Char → Prop
  | word {cs : List Char} (hne : cs ≠ []) (h : IsWord cs) : IsValue cs
  | quoted {c : Char} {cs : List Char} (n : Nat) (hc : isQuotable c = true)
    (h : ∀ d ∈ cs, isQuotable d = true ∧ d ≠ '"') : IsValue ('"' :: c :: (cs ++ '"' :: blanks n))

/-- What may follow the first semicolon. -/
inductive AreParams : List Char → Prop
  | none (n : Nat) : AreParams (blanks n)
  | last {name value : List Char} (n : Nat) (hne : name ≠ []) (hname : IsWord name)
    (hvalue : value = [] ∨ IsValue value) : AreParams (blanks n ++ (name ++ '=' :: value))
  | more {name value rest : List Char} (n : Nat) (hne : name ≠ []) (hname : IsWord name)
      (hvalue : IsValue value)
    (hrest : AreParams rest) : AreParams (blanks n ++ (name ++ '=' :: (value ++ ';' :: rest)))

theorem AreParams.blank_cons (h : AreParams cs) : AreParams (' ' :: cs) := by
  cases h with
  | none n => exact .none (n + 1)
  | last n hne hname hvalue => exact .last (n + 1) hne hname hvalue
  | more n hne hname hvalue hrest => exact .more (n + 1) hne hname hvalue hrest

namespace Place

def after? (place : Place) (cs : List Char) : Option Place :=
  cs.foldlM (fun place c => next? c place) place

theorem after?_cons (place : Place) (c : Char) (cs : List Char) :
    place.after? (c :: cs) = (next? c place).bind (after? · cs) :=
  List.foldlM_cons ..

theorem after?_append (place : Place) (cs rest : List Char) :
    place.after? (cs ++ rest) = (place.after? cs).bind (after? · rest) :=
  List.foldlM_append ..

theorem after?_of_loop (h : ∀ c ∈ cs, next? c place = some place) :
    place.after? cs = some place := by
  induction cs with
  | nil => rfl
  | cons c cs ih =>
    rw [List.forall_mem_cons] at h
    rw [after?_cons, h.1]
    exact ih h.2

theorem ne_of_isTokenChar (h : isTokenChar c = true) : c ≠ ' ' ∧ c ≠ '=' ∧ c ≠ '"' ∧ c ≠ ';' := by
  refine ⟨?_, ?_, ?_, ?_⟩ <;> rintro rfl <;> exact absurd h (by decide)

theorem after?_blanks (hplace : next? ' ' place = some place) (n : Nat) :
    place.after? (blanks n) = some place :=
  after?_of_loop fun _ hc => List.eq_of_mem_replicate hc ▸ hplace

theorem after?_name (hne : name ≠ []) (hname : IsWord name) :
    nameStart.after? name = some .name := by
  obtain ⟨c, cs, rfl⟩ := List.exists_cons_of_ne_nil hne
  obtain ⟨hc, hcs⟩ := List.forall_mem_cons.1 hname
  have hstart : next? c nameStart = some .name := by simp [next?, (ne_of_isTokenChar hc).1, hc]
  rw [after?_cons, hstart]
  exact after?_of_loop fun d hd => by simp [next?, (ne_of_isTokenChar (hcs d hd)).2.1, hcs d hd]

theorem after?_value (h : IsValue value) :
    ∃ place, valueStart.after? value = some place ∧ place.isEnd = true ∧
    next? ';' place = some nameStart := by
  cases h with
  | word hne h =>
    refine ⟨.value, ?_, rfl, rfl⟩
    obtain ⟨c, cs, rfl⟩ := List.exists_cons_of_ne_nil hne
    obtain ⟨hc, hcs⟩ := List.forall_mem_cons.1 h
    have hstart : next? c valueStart = some .value := by
      simp [next?, (ne_of_isTokenChar hc).2.2.1, hc]
    rw [after?_cons, hstart]
    exact after?_of_loop fun d hd => by simp [next?, (ne_of_isTokenChar (hcs d hd)).2.2.2, hcs d hd]
  | @quoted c cs n hc h =>
    refine ⟨.afterQuote, ?_, rfl, rfl⟩
    have hstart : next? c quoteStart = some .quote := by simp [next?, hc]
    have hloop : quote.after? cs = some .quote := after?_of_loop fun d hd => by
      simp [next?, (h d hd).1, (h d hd).2]
    have hopen : next? '"' valueStart = some .quoteStart := rfl
    have hclose : next? '"' quote = some .afterQuote := rfl
    simp only [after?_cons, after?_append, hopen, hstart, hloop, hclose, Option.bind_some]
    exact after?_blanks rfl n

def EndsValue (cs : List Char) : Prop :=
  cs = [] ∨ ∃ rest, cs = ';' :: rest ∧ AreParams rest

def HasValue (cs : List Char) : Prop :=
  cs = [] ∨ ∃ value rest, IsValue value ∧ cs = value ++ rest ∧ EndsValue rest

def Leaves (cs : List Char) : Place → Prop
  | .nameStart => AreParams cs
  | .name => ∃ word rest, IsWord word ∧ cs = word ++ '=' :: rest ∧ HasValue rest
  | .valueStart => HasValue cs
  | .value => ∃ word rest, IsWord word ∧ cs = word ++ rest ∧ EndsValue rest
  | .quoteStart => ∃ c quoted n rest, isQuotable c = true ∧
      (∀ d ∈ quoted, isQuotable d = true ∧ d ≠ '"') ∧
      cs = c :: (quoted ++ '"' :: (blanks n ++ rest)) ∧ EndsValue rest
  | .quote => ∃ quoted n rest, (∀ d ∈ quoted, isQuotable d = true ∧ d ≠ '"') ∧
      cs = quoted ++ '"' :: (blanks n ++ rest) ∧ EndsValue rest
  | .afterQuote => ∃ n rest, cs = blanks n ++ rest ∧ EndsValue rest

theorem leaves_nil (h : place.isEnd = true) : place.Leaves [] := by
  cases place with
  | nameStart => exact .none 0
  | valueStart => exact .inl rfl
  | value => exact ⟨[], [], nofun, rfl, .inl rfl⟩
  | afterQuote => exact ⟨0, [], rfl, .inl rfl⟩
  | name | quoteStart | quote => exact nomatch h

theorem areParams_of_hasValue (hne : name ≠ []) (hname : IsWord name) (h : HasValue rest) :
    AreParams (name ++ '=' :: rest) := by
  rcases h with rfl | ⟨value, _, hvalue, rfl, rfl | ⟨rest, rfl, hrest⟩⟩
  · exact .last 0 hne hname (.inl rfl)
  · rw [List.append_nil]
    exact .last 0 hne hname (.inr hvalue)
  · exact .more 0 hne hname hvalue hrest

theorem leaves_cons (h : next? c place = some place') (hleaves : place'.Leaves cs) :
    place.Leaves (c :: cs) := by
  cases place with
  | nameStart =>
    simp only [next?] at h
    split_ifs at h with hblank htoken <;> cases h
    · exact hblank ▸ hleaves.blank_cons
    · obtain ⟨word, rest, hword, rfl, hrest⟩ := hleaves
      exact areParams_of_hasValue (List.cons_ne_nil c word)
        (List.forall_mem_cons.2 ⟨htoken, hword⟩) hrest
  | name =>
    simp only [next?] at h
    split_ifs at h with hequals htoken <;> cases h
    · exact ⟨[], cs, nofun, by rw [hequals]; rfl, hleaves⟩
    · obtain ⟨word, rest, hword, rfl, hrest⟩ := hleaves
      exact ⟨c :: word, rest, List.forall_mem_cons.2 ⟨htoken, hword⟩, rfl, hrest⟩
  | valueStart =>
    simp only [next?] at h
    split_ifs at h with hquote htoken <;> cases h
    · obtain ⟨d, quoted, n, rest, hd, hquoted, rfl, hrest⟩ := hleaves
      exact .inr ⟨_, rest, .quoted n hd hquoted, by simp [hquote], hrest⟩
    · obtain ⟨word, rest, hword, rfl, hrest⟩ := hleaves
      exact .inr ⟨c :: word, rest, .word (List.cons_ne_nil c word)
        (List.forall_mem_cons.2 ⟨htoken, hword⟩), rfl, hrest⟩
  | value =>
    simp only [next?] at h
    split_ifs at h with hsemicolon htoken <;> cases h
    · exact ⟨[], c :: cs, nofun, rfl, .inr ⟨cs, by rw [hsemicolon], hleaves⟩⟩
    · obtain ⟨word, rest, hword, rfl, hrest⟩ := hleaves
      exact ⟨c :: word, rest, List.forall_mem_cons.2 ⟨htoken, hword⟩, rfl, hrest⟩
  | quoteStart =>
    simp only [next?] at h
    split_ifs at h with hquotable
    cases h
    obtain ⟨quoted, n, rest, hquoted, rfl, hrest⟩ := hleaves
    exact ⟨c, quoted, n, rest, hquotable, hquoted, rfl, hrest⟩
  | quote =>
    simp only [next?] at h
    split_ifs at h with hquote hquotable <;> cases h
    · obtain ⟨n, rest, rfl, hrest⟩ := hleaves
      exact ⟨[], n, rest, nofun, by rw [hquote]; rfl, hrest⟩
    · obtain ⟨quoted, n, rest, hquoted, rfl, hrest⟩ := hleaves
      exact ⟨c :: quoted, n, rest, List.forall_mem_cons.2 ⟨⟨hquotable, hquote⟩, hquoted⟩,
        rfl, hrest⟩
  | afterQuote =>
    simp only [next?] at h
    split_ifs at h with hsemicolon hblank <;> cases h
    · exact ⟨0, c :: cs, rfl, .inr ⟨cs, by rw [hsemicolon], hleaves⟩⟩
    · obtain ⟨n, rest, rfl, hrest⟩ := hleaves
      exact ⟨n + 1, rest, by rw [hblank]; rfl, hrest⟩

theorem leaves_of_after? (h : place.after? cs = some place') (hend : place'.isEnd = true) :
    place.Leaves cs := by
  induction cs generalizing place with
  | nil =>
    cases h
    exact leaves_nil hend
  | cons c cs ih =>
    rw [after?_cons] at h
    obtain ⟨next, hnext, hrest⟩ := Option.bind_eq_some_iff.1 h
    exact leaves_cons hnext (ih hrest)

theorem after?_params (h : AreParams cs) :
    ∃ place, nameStart.after? cs = some place ∧ place.isEnd = true := by
  induction h with
  | none n => exact ⟨_, after?_blanks rfl n, rfl⟩
  | @last name value n hne hname hvalue =>
    have hblanks : nameStart.after? (blanks n) = some nameStart := after?_blanks rfl n
    have hequals : next? '=' .name = some valueStart := rfl
    simp only [after?_append, hblanks, after?_name hne hname, after?_cons,
      hequals, Option.bind_some]
    rcases hvalue with rfl | hvalue
    · exact ⟨_, rfl, rfl⟩
    · obtain ⟨place, hplace, hend, -⟩ := after?_value hvalue
      exact ⟨place, hplace, hend⟩
  | @more name value rest n hne hname hvalue _ ih =>
    have hblanks : nameStart.after? (blanks n) = some nameStart := after?_blanks rfl n
    have hequals : next? '=' .name = some valueStart := rfl
    obtain ⟨place, hplace, -, hnext⟩ := after?_value hvalue
    simpa only [after?_append, hblanks, after?_name hne hname, after?_cons,
      hequals, Option.bind_some, hplace, hnext] using ih

end Place

/-- The reading of parameters accepts what the grammar makes, and nothing else. -/
theorem areParams_iff : areParams cs = true ↔ AreParams cs := by
  have hreading : areParams cs = true ↔ ∃ place, Place.nameStart.after? cs = some place ∧
      place.isEnd = true := by
    rw [areParams, Option.any_eq_true]
    rfl
  rw [hreading]
  exact ⟨fun ⟨_, hplace, hend⟩ => Place.leaves_of_after? hplace hend, Place.after?_params⟩

theorem exists_word (cs : List Char) : ∃ word rest, cs = word ++ rest ∧ IsWord word ∧
    cs.takeWhile isTokenChar = word ∧ cs.drop word.length = rest := by
  have hsplit : cs = cs.takeWhile isTokenChar ++ cs.dropWhile isTokenChar :=
    List.takeWhile_append_dropWhile.symm
  refine ⟨cs.takeWhile isTokenChar, cs.dropWhile isTokenChar, hsplit,
    fun c hc => List.mem_takeWhile_imp hc, rfl, ?_⟩
  exact (congrArg (List.drop (cs.takeWhile isTokenChar).length) hsplit).trans List.drop_left

theorem takeWhile_word (hword : IsWord cs)
    (hrest : rest.head?.all (fun c => !isTokenChar c) = true) :
    (cs ++ rest).takeWhile isTokenChar = cs ∧ (cs ++ rest).drop cs.length = rest := by
  refine ⟨?_, List.drop_left⟩
  rw [List.takeWhile_append_of_pos hword]
  cases rest with
  | nil => exact List.append_nil cs
  | cons c rest =>
    have hc : ¬isTokenChar c = true := by simpa using hrest
    rw [List.takeWhile_cons_of_neg hc, List.append_nil]

theorem parse?_eq_some_iff : parse? s = some m ↔
    ∃ type subtype tail, type ≠ [] ∧ IsWord type ∧ IsWord subtype ∧
      written s = type ++ '/' :: (subtype ++ tail) ∧
      (tail = [] ∨ subtype ≠ [] ∧ ∃ params, tail = ';' :: params ∧ AreParams params) ∧
      m = ofSubtype type subtype := by
  unfold parse?
  generalize written s = cs
  constructor
  · intro h
    obtain ⟨type, afterType, rfl, htype, htake, hdrop⟩ := exists_word cs
    simp only [htake, hdrop] at h
    split at h
    · rename_i first others rest
      obtain ⟨subtype, tail, rfl, hsubtype, htake', hdrop'⟩ := exists_word rest
      simp only [htake', hdrop'] at h
      refine ⟨first :: others, subtype, tail, List.cons_ne_nil _ _, htype, hsubtype, rfl, ?_⟩
      split at h
      · exact ⟨.inl rfl, (Option.some.inj h).symm⟩
      · split_ifs at h with hparams
        exact ⟨.inr ⟨List.cons_ne_nil _ _, _, rfl, areParams_iff.1 hparams⟩,
          (Option.some.inj h).symm⟩
      · cases h
    · cases h
  · rintro ⟨type, subtype, tail, hne, htype, hsubtype, rfl, htail, rfl⟩
    have htail' : tail.head?.all (fun c => !isTokenChar c) = true := by
      rcases htail with rfl | ⟨-, params, rfl, -⟩ <;> rfl
    obtain ⟨first, others, rfl⟩ := List.exists_cons_of_ne_nil hne
    obtain ⟨htake, hdrop⟩ :=
      takeWhile_word htype (rfl : ('/' :: (subtype ++ tail)).head?.all _ = true)
    obtain ⟨htake', hdrop'⟩ := takeWhile_word hsubtype htail'
    simp only [htake, hdrop, htake', hdrop']
    rcases htail with rfl | ⟨hsubtype, params, rfl, hparams⟩
    · rfl
    · obtain ⟨c, others, rfl⟩ := List.exists_cons_of_ne_nil hsubtype
      exact if_pos (areParams_iff.2 hparams)

theorem afterPlus_append {front suffix : List Char} (h : '+' ∉ suffix) :
    ((front ++ '+' :: suffix).reverse.takeWhile (· ≠ '+')).reverse = suffix := by
  have hplus : ∀ c ∈ suffix.reverse, decide (c ≠ '+') = true := fun c hc =>
    decide_eq_true fun heq => h (heq ▸ List.mem_reverse.1 hc)
  rw [List.reverse_append, List.reverse_cons, List.append_assoc, List.takeWhile_append_of_pos hplus]
  simp

theorem ofSubtype_of_notMem (h : '+' ∉ cs) : ofSubtype type cs = ⟨type, cs, none⟩ := by
  have hplus : ∀ c ∈ cs.reverse, decide (c ≠ '+') = true := fun c hc =>
    decide_eq_true fun heq => h (heq ▸ List.mem_reverse.1 hc)
  have hsuffix : (cs.reverse.takeWhile (· ≠ '+')).reverse = cs := by
    rw [List.takeWhile_eq_self_iff.2 hplus, List.reverse_reverse]
  simp only [ofSubtype, hsuffix, Nat.sub_self, Nat.zero_sub, if_true]

theorem ofSubtype_append {front suffix : List Char} (h : '+' ∉ suffix) :
    ofSubtype type (front ++ '+' :: suffix) =
      if front = [] then ⟨type, '+' :: suffix, none⟩ else ⟨type, front, some suffix⟩ := by
  have hlength : (front ++ '+' :: suffix).length - suffix.length - 1 = front.length := by
    rw [List.length_append, List.length_cons]
    omega
  simp only [ofSubtype, afterPlus_append h, hlength, List.length_eq_zero_iff, List.take_left]
  split_ifs with hfront
  · rw [hfront, List.nil_append]
  · rfl

theorem exists_last_plus (h : '+' ∈ cs) :
    ∃ front suffix, cs = front ++ '+' :: suffix ∧ '+' ∉ suffix := by
  obtain ⟨suffix, front, hcs, hsuffix⟩ := List.eq_append_cons_of_mem (List.mem_reverse.2 h)
  refine ⟨front.reverse, suffix.reverse, ?_, fun hmem => hsuffix (List.mem_reverse.1 hmem)⟩
  rw [← List.reverse_reverse cs, hcs]
  simp

theorem last_plus_unique {front suffix front' suffix' : List Char} (h : '+' ∉ suffix)
    (h' : '+' ∉ suffix')
    (heq : front ++ '+' :: suffix = front' ++ '+' :: suffix') : front = front' ∧
    suffix = suffix' := by
  have hsuffix : suffix = suffix' := by rw [← afterPlus_append h, heq, afterPlus_append h']
  subst hsuffix
  exact ⟨List.append_cancel_right heq, rfl⟩

theorem isJson_iff : m.isJson = true ↔
    m.type = "application".toList ∧ (m.subtype = "json".toList ∨
      m.suffix = some "json".toList) := by
  simp only [isJson, Bool.and_eq_true, Bool.or_eq_true, decide_eq_true_eq]

/-- JSON types are those of applications whose subtype is JSON by itself, in front of the last plus
or behind it. -/
theorem isJson_ofSubtype_iff : (ofSubtype type cs).isJson = true ↔ type = "application".toList ∧
    (cs = "json".toList ∨ (∃ suffix, '+' ∉ suffix ∧ cs = "json".toList ++ '+' :: suffix) ∨
      ∃ front, front ≠ [] ∧ cs = front ++ '+' :: "json".toList) := by
  have hjson : '+' ∉ "json".toList := by decide
  by_cases hplus : '+' ∈ cs
  · obtain ⟨front, suffix, rfl, hsuffix⟩ := exists_last_plus hplus
    have hwhole : front ++ '+' :: suffix ≠ "json".toList := fun heq => hjson (heq ▸ by simp)
    have hfront : (∃ suffix', '+' ∉ suffix' ∧ front ++ '+' :: suffix = "json".toList ++
      '+' :: suffix') ↔
        front = "json".toList := by
      constructor
      · rintro ⟨suffix', hsuffix', heq⟩
        exact (last_plus_unique hsuffix hsuffix' heq).1
      · rintro rfl
        exact ⟨suffix, hsuffix, rfl⟩
    have hback : (∃ front', front' ≠ [] ∧ front ++ '+' :: suffix = front' ++ '+' :: "json".toList) ↔
        front ≠ [] ∧ suffix = "json".toList := by
      constructor
      · rintro ⟨front', hne, heq⟩
        obtain ⟨rfl, rfl⟩ := last_plus_unique hsuffix hjson heq
        exact ⟨hne, rfl⟩
      · rintro ⟨hne, rfl⟩
        exact ⟨front, hne, rfl⟩
    rw [ofSubtype_append hsuffix, hfront, hback]
    split_ifs with hempty
    · subst hempty
      have hjsonFront : ([] : List Char) ≠ "json".toList := by decide
      simp only [List.nil_append] at hwhole
      simp only [isJson_iff, List.nil_append, hwhole, hjsonFront, reduceCtorEq,
        ne_eq, not_true_eq_false, false_and, or_self]
    · simp only [isJson_iff, hwhole, hempty, Option.some.injEq, false_or,
        ne_eq, not_false_eq_true, true_and]
  · have hfront : ∀ suffix, cs ≠ "json".toList ++ '+' :: suffix :=
      fun suffix heq => hplus (heq ▸ by simp)
    have hback : ∀ front, cs ≠ front ++ '+' :: "json".toList :=
      fun front heq => hplus (heq ▸ by simp)
    simp only [ofSubtype_of_notMem hplus, isJson_iff, hfront, hback,
      reduceCtorEq, and_false, exists_false, or_false]

end Calculator.Server.MediaType
