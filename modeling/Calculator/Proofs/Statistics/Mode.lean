import Calculator.Proofs.Binary64.Order
import Calculator.Proofs.Statistics.Summary

/-!
# The most frequent value

The tallies of a list say of each of its values how often it occurs and where it stands first. That
holds of the part that has been read, whatever comes after it. No two tallies stand for one place,
so only one of them leads all others, and it does not matter in which order they are listed.
-/

namespace Calculator

open Binary64

variable {x y : Float} {values : List Float} {place : Nat} {ts : List Tally} {s t : Tally}

namespace Statistics

theorem sameValue_iff : sameValue x y = true ↔ (mergeZero x).toBits = (mergeZero y).toBits :=
  beq_iff_eq

theorem sameValue_comm (x y : Float) : sameValue x y = sameValue y x :=
  Bool.eq_iff_iff.2 (by rw [sameValue_iff, sameValue_iff, eq_comm])

theorem sameValue_trans {z : Float} (hxy : sameValue x y = true) (hyz : sameValue y z = true) :
    sameValue x z = true :=
  sameValue_iff.2 ((sameValue_iff.1 hxy).trans (sameValue_iff.1 hyz))

theorem sameValue_congr (h : sameValue x y = true) : sameValue x = sameValue y := by
  funext z
  exact Bool.eq_iff_iff.2 ⟨sameValue_trans (sameValue_comm x y ▸ h), sameValue_trans h⟩

theorem sameValue_eq_beq (hx : x.isFinite = true) (hy : y.isFinite = true) :
    sameValue x y = (y == x) := by
  rw [Bool.eq_iff_iff, sameValue_iff, beq_iff hy hx]
  constructor
  · intro h
    rw [← signedPattern_mergeZero hx, ← signedPattern_mergeZero hy, toBits_inj h]
  · intro h
    rw [mergeZero_eq hx, mergeZero_eq hy, h]
    split
    · rfl
    · next hzero => rw [eq_of_signedPattern_eq h (h ▸ hzero)]

theorem frequency_eq_count (h : ∀ y ∈ values, y.isFinite = true) (hx : x.isFinite = true) :
    frequency values x = values.count x := by
  rw [frequency, List.count]
  exact List.countP_congr fun y hy => by rw [sameValue_eq_beq hx (h y hy)]

theorem frequency_congr (h : sameValue x y = true) : frequency values x = frequency values y := by
  rw [frequency, frequency, sameValue_congr h]

theorem frequency_concat (values : List Float) (x y : Float) :
    frequency (values ++ [x]) y = frequency values y + if sameValue y x then 1 else 0 := by
  rw [frequency, List.countP_append, List.countP_singleton, frequency]

/-- The tallies of a list: each has a value as it stands at its first place, and all values have
one. -/
structure AreTallies (values : List Float) (ts : List Tally) : Prop where
  counted : ∀ t ∈ ts, t.count = frequency values t.value
  stands : ∀ t ∈ ts, values[t.place]? = some t.value
  first : ∀ t ∈ ts, ∀ i < t.place, ∀ x, values[i]? = some x → sameValue t.value x = false
  complete : ∀ x ∈ values, ∃ t ∈ ts, sameValue t.value x = true
  distinct : ts.Pairwise fun s t => sameValue s.value t.value = false

theorem add_of_new (h : ∀ t ∈ ts, sameValue t.value x = false) :
    Tally.add x place ts = ts ++ [⟨x, 1, place⟩] := by
  induction ts with
  | nil => rfl
  | cons t rest ih =>
    rw [List.forall_mem_cons] at h
    rw [Tally.add, h.1, if_neg Bool.false_ne_true, ih h.2, List.cons_append]

def Tally.countIf (x : Float) (t : Tally) : Tally :=
  if sameValue t.value x then { t with count := t.count + 1 } else t

theorem countIf_of_new (h : ∀ t ∈ ts, sameValue t.value x = false) :
    ts.map (Tally.countIf x) = ts := by
  conv_rhs => rw [← List.map_id ts]
  exact List.map_congr_left fun t ht => by
    rw [Tally.countIf, h t ht, if_neg Bool.false_ne_true]; rfl

theorem add_of_known (hdistinct : ts.Pairwise fun s t => sameValue s.value t.value = false)
    (h : ∃ t ∈ ts, sameValue t.value x = true) : Tally.add x place ts =
      ts.map (Tally.countIf x) := by
  induction ts with
  | nil =>
    obtain ⟨t, ht, -⟩ := h
    cases ht
  | cons t rest ih =>
    rw [List.pairwise_cons] at hdistinct
    rw [Tally.add, List.map_cons, Tally.countIf]
    split
    · next hsame =>
      have hrest : ∀ s ∈ rest, sameValue s.value x = false := by
        intro s hs
        rw [sameValue_comm, ← sameValue_congr hsame]
        exact hdistinct.1 s hs
      rw [countIf_of_new hrest]
    · next hother =>
      obtain ⟨s, hs, hsame⟩ := h
      rw [ih hdistinct.2 ⟨s, (List.mem_cons.1 hs).resolve_left fun hst => hother
        (hst ▸ hsame), hsame⟩]

@[simp]
theorem value_countIf (x : Float) (t : Tally) : (Tally.countIf x t).value = t.value := by
  rw [Tally.countIf]
  split <;> rfl

@[simp]
theorem place_countIf (x : Float) (t : Tally) : (Tally.countIf x t).place = t.place := by
  rw [Tally.countIf]
  split <;> rfl

theorem count_countIf (x : Float) (t : Tally) :
    (Tally.countIf x t).count = t.count + if sameValue t.value x then 1 else 0 := by
  rw [Tally.countIf]
  split <;> rfl

theorem AreTallies.place_lt (h : AreTallies values ts) (ht : t ∈ ts) : t.place < values.length :=
  (List.getElem?_eq_some_iff.1 (h.stands t ht)).1

theorem AreTallies.not_same_of_new (h : AreTallies values ts)
    (hnew : ∀ t ∈ ts, sameValue t.value x = false) :
    ∀ y ∈ values, sameValue x y = false := by
  intro y hy
  obtain ⟨t, ht, hsame⟩ := h.complete y hy
  rw [sameValue_comm, ← sameValue_congr hsame]
  exact hnew t ht

/-- One more number is counted where its value is known, and has a tally of its own where it is
new. -/
theorem AreTallies.add (h : AreTallies values ts) (x : Float) :
    AreTallies (values ++ [x]) (Tally.add x values.length ts) := by
  by_cases hknown : ∃ t ∈ ts, sameValue t.value x = true
  · rw [add_of_known h.distinct hknown]
    constructor
    · intro t ht
      obtain ⟨s, hs, rfl⟩ := List.mem_map.1 ht
      rw [count_countIf, value_countIf, frequency_concat, h.counted s hs]
    · intro t ht
      obtain ⟨s, hs, rfl⟩ := List.mem_map.1 ht
      rw [value_countIf, place_countIf, List.getElem?_append_left (h.place_lt hs), h.stands s hs]
    · intro t ht i hi y hy
      obtain ⟨s, hs, rfl⟩ := List.mem_map.1 ht
      rw [place_countIf] at hi
      rw [List.getElem?_append_left (hi.trans (h.place_lt hs))] at hy
      rw [value_countIf]
      exact h.first s hs i hi y hy
    · intro y hy
      obtain ⟨t, ht, hsame⟩ : ∃ t ∈ ts, sameValue t.value y = true := by
        rcases List.mem_append.1 hy with hy | hy
        · exact h.complete y hy
        · rwa [List.mem_singleton.1 hy]
      exact ⟨_, List.mem_map_of_mem ht, by rwa [value_countIf]⟩
    · exact List.pairwise_map.2 (by simpa using h.distinct)
  · have hnew : ∀ t ∈ ts, sameValue t.value x = false := fun t ht =>
      Bool.eq_false_of_not_eq_true fun hsame => hknown ⟨t, ht, hsame⟩
    have hnone := h.not_same_of_new hnew
    rw [add_of_new hnew]
    constructor
    · refine List.forall_mem_append.2 ⟨fun t ht => ?_, List.forall_mem_singleton.2 ?_⟩
      · rw [frequency_concat, hnew t ht, if_neg Bool.false_ne_true, Nat.add_zero, h.counted t ht]
      · have hzero : frequency values x = 0 := List.countP_eq_zero.2 fun y hy => by
          simp [hnone y hy]
        rw [frequency_concat, hzero, sameValue_self, if_pos rfl]
    · refine List.forall_mem_append.2 ⟨fun t ht => ?_,
        List.forall_mem_singleton.2 List.getElem?_concat_length⟩
      rw [List.getElem?_append_left (h.place_lt ht), h.stands t ht]
    · refine List.forall_mem_append.2 ⟨fun t ht i hi y hy => ?_,
        List.forall_mem_singleton.2 fun i hi y hy => ?_⟩
      · rw [List.getElem?_append_left (hi.trans (h.place_lt ht))] at hy
        exact h.first t ht i hi y hy
      · rw [List.getElem?_append_left hi] at hy
        exact hnone y (List.mem_of_getElem? hy)
    · refine List.forall_mem_append.2 ⟨fun y hy => ?_, List.forall_mem_singleton.2 ?_⟩
      · obtain ⟨t, ht, hsame⟩ := h.complete y hy
        exact ⟨t, List.mem_append_left _ ht, hsame⟩
      · exact ⟨_, List.mem_append_right _ (List.mem_singleton_self _), sameValue_self x⟩
    · exact List.pairwise_append.2 ⟨h.distinct, List.pairwise_singleton _ _,
        fun t ht => by simpa using hnew t ht⟩

theorem areTallies_tallies (values : List Float) : AreTallies values (tallies values) := by
  induction values using List.reverseRecOn with
  | nil => exact ⟨nofun, nofun, nofun, nofun, .nil⟩
  | append_singleton values x ih =>
    rw [tallies, List.zipIdx_append, List.foldl_append, List.zipIdx_singleton, Nat.zero_add]
    exact ih.add x

theorem leads_eq_false_iff :
    s.leads t = false ↔ s.count < t.count ∨ s.count = t.count ∧ t.place ≤ s.place := by
  simp only [Tally.leads, Bool.or_eq_false_iff, decide_eq_false_iff_not,
    Bool.and_eq_false_iff, beq_eq_false_iff_ne]
  omega

theorem foldl_leader (best : Tally) (ts : List Tally) :
    ∃ t ∈ best :: ts,
      ts.foldl (fun best t => some (best.elim t fun s => if t.leads s then t else s))
      (some best) = some t ∧
      ∀ s ∈ best :: ts, s.leads t = false := by
  induction ts generalizing best with
  | nil =>
    refine ⟨best, List.mem_cons_self, rfl, List.forall_mem_singleton.2 ?_⟩
    exact leads_eq_false_iff.2 (.inr ⟨rfl, Nat.le_refl _⟩)
  | cons u rest ih =>
    rw [List.foldl_cons, Option.elim_some]
    cases hleads : u.leads best with
    | true =>
      obtain ⟨t, ht, hfold, hfirst⟩ := ih u
      rw [List.forall_mem_cons] at hfirst
      refine ⟨t, List.mem_cons_of_mem _ ht, hfold, ?_⟩
      -- What comes behind `u` comes behind all that `u` does not lead.
      have hbest : best.leads t = false := by
        have hu := leads_eq_false_iff.1 hfirst.1
        have hnot := leads_eq_false_iff.not.1 (Bool.not_eq_false _ ▸ hleads)
        rw [leads_eq_false_iff]
        omega
      exact List.forall_mem_cons.2 ⟨hbest, List.forall_mem_cons.2 hfirst⟩
    | false =>
      obtain ⟨t, ht, hfold, hfirst⟩ := ih best
      rw [List.forall_mem_cons] at hfirst
      have hmem : t ∈ best :: u :: rest :=
        List.mem_cons.2 ((List.mem_cons.1 ht).imp_right (List.mem_cons_of_mem u))
      refine ⟨t, hmem, hfold, ?_⟩
      have hu : u.leads t = false := by
        have hbest := leads_eq_false_iff.1 hfirst.1
        have hnot := leads_eq_false_iff.1 hleads
        rw [leads_eq_false_iff]
        omega
      exact List.forall_mem_cons.2 ⟨hfirst.1, List.forall_mem_cons.2 ⟨hu, hfirst.2⟩⟩

theorem exists_leader (hne : ts ≠ []) :
    ∃ t ∈ ts, leader? ts = some t ∧ ∀ s ∈ ts, s.leads t = false := by
  obtain ⟨best, rest, rfl⟩ := List.exists_cons_of_ne_nil hne
  exact foldl_leader best rest

theorem AreTallies.eq_of_leads (h : AreTallies values ts) (hs : s ∈ ts)
    (ht : t ∈ ts) (hst : s.leads t = false) (hts : t.leads s = false) : s = t := by
  rw [leads_eq_false_iff] at hst hts
  have hplace : s.place = t.place := by omega
  have hcount : s.count = t.count := by omega
  have hvalue : s.value = t.value := by
    have hstands := h.stands t ht
    rw [← hplace, h.stands s hs] at hstands
    exact Option.some.inj hstands
  obtain ⟨value, count, place⟩ := s
  cases hplace
  cases hcount
  cases hvalue
  rfl

theorem AreTallies.leader_of_perm (h : AreTallies values ts) (hne : ts ≠ []) {entries : List Tally}
    (hperm : entries.Perm ts) : leader? entries = leader? ts := by
  obtain ⟨s, hs, hleader, hfirst⟩ := exists_leader fun hnil =>
    hne (List.perm_nil.1 (hnil ▸ hperm.symm))
  obtain ⟨t, ht, hleader', hfirst'⟩ := exists_leader hne
  have hs' := hperm.mem_iff.1 hs
  rw [hleader, hleader', h.eq_of_leads hs' ht (hfirst' s hs') (hfirst t (hperm.mem_iff.2 ht))]

theorem tallies_ne_nil (hne : values ≠ []) : tallies values ≠ [] := by
  obtain ⟨x, hx⟩ := List.exists_mem_of_ne_nil values hne
  obtain ⟨t, ht, -⟩ := (areTallies_tallies values).complete x hx
  exact List.ne_nil_of_mem ht

theorem AreTallies.frequency_le (h : AreTallies values ts) (ht : t ∈ ts)
    (hfirst : ∀ s ∈ ts, s.leads t = false) :
    (∀ y ∈ values, frequency values y ≤ frequency values t.value) ∧
      ∀ j < t.place, ∀ y, values[j]? = some y → frequency values y < frequency values t.value := by
  refine ⟨fun y hy => ?_, fun j hj y hy => ?_⟩
  · obtain ⟨s, hs, hsame⟩ := h.complete y hy
    have hleads := leads_eq_false_iff.1 (hfirst s hs)
    rw [← frequency_congr hsame, ← h.counted s hs, ← h.counted t ht]
    omega
  · obtain ⟨s, hs, hsame⟩ := h.complete y (List.mem_of_getElem? hy)
    have hleads := leads_eq_false_iff.1 (hfirst s hs)
    have hplace : s.place ≤ j := Nat.le_of_not_lt fun hlt => by
      rw [h.first s hs j hlt y hy] at hsame
      cases hsame
    rw [← frequency_congr hsame, ← h.counted s hs, ← h.counted t ht]
    omega

/-- The mode of finite numbers is the first of them that no other outnumbers, and every order of the
tallies gives it. Numbers are counted by their values, so the zeros of both signs are counted
together. -/
theorem mode_first_most_frequent (hne : values ≠ []) (hfinite : ∀ x ∈ values, x.isFinite = true) :
    ∃ (i : Nat) (hi : i < values.length),
      mode values = .ok values[i] ∧
      (∀ y ∈ values, values.count y ≤ values.count values[i]) ∧
      (∀ (j : Nat) (hj : j < i), values.count values[j] < values.count values[i]) ∧
      ∀ entries, entries.Perm (tallies values) →
        leader? entries = some ⟨values[i], values.count values[i], i⟩ := by
  have htallies := areTallies_tallies values
  have hsome := tallies_ne_nil hne
  obtain ⟨t, ht, hleader, hfirst⟩ := exists_leader hsome
  obtain ⟨hi, hvalue⟩ := List.getElem?_eq_some_iff.1 (htallies.stands t ht)
  obtain ⟨hmost, hless⟩ := htallies.frequency_le ht hfirst
  have hcount : ∀ y ∈ values, frequency values y = values.count y := fun y hy =>
    frequency_eq_count hfinite (hfinite y hy)
  have hmem : t.value ∈ values := hvalue ▸ List.getElem_mem hi
  refine ⟨t.place, hi, ?_, fun y hy => ?_, fun j hj => ?_, fun entries hperm => ?_⟩
  · rw [mode, require_of_le (List.length_pos_of_ne_nil hne), hleader, hvalue]
    rfl
  · rw [hvalue, ← hcount y hy, ← hcount _ hmem]
    exact hmost y hy
  · rw [hvalue, ← hcount _ (List.getElem_mem _), ← hcount _ hmem]
    exact hless j hj _ (List.getElem?_eq_getElem _)
  · rw [htallies.leader_of_perm hsome hperm, hleader, hvalue, ← hcount _ hmem,
      ← htallies.counted t ht]

theorem mode_first_most_frequent_zeros :
    ([3, -0.0, 7, 0.0, 7] : List Float) ≠ [] ∧
    (∀ x ∈ ([3, -0.0, 7, 0.0, 7] : List Float), x.isFinite = true) ∧
      mode [3, -0.0, 7, 0.0, 7] = .ok (-0.0) ∧
      leader? (tallies [3, -0.0, 7, 0.0, 7]).reverse = some ⟨-0.0, 2, 1⟩ := by
  have hne : ([3, -0.0, 7, 0.0, 7] : List Float) ≠ [] := List.cons_ne_nil _ _
  have hfinite : ∀ x ∈ ([3, -0.0, 7, 0.0, 7] : List Float), x.isFinite = true := by decide +kernel
  obtain ⟨i, hi, hmode, hmost, hless, hleader⟩ := mode_first_most_frequent hne hfinite
  have hthree : List.count 3 ([3, -0.0, 7, 0.0, 7] : List Float) = 1 := by decide +kernel
  have hnegative : List.count (-0.0) ([3, -0.0, 7, 0.0, 7] : List Float) = 2 := by decide +kernel
  have hpositive : List.count 0.0 ([3, -0.0, 7, 0.0, 7] : List Float) = 2 := by decide +kernel
  have hseven : List.count 7 ([3, -0.0, 7, 0.0, 7] : List Float) = 2 := by decide +kernel
  have hfirst : i = 1 := by
    have hfive : i < 5 := hi
    have hleast := hmost (-0.0) (List.mem_cons_of_mem _ List.mem_cons_self)
    have hbefore := hless 1
    interval_cases i <;> simp only [List.getElem_cons_zero, List.getElem_cons_succ]
      at hleast hbefore <;> omega
  subst hfirst
  refine ⟨hne, hfinite, hmode, ?_⟩
  rw [← hnegative]
  exact hleader _ (List.reverse_perm _)

end Statistics

end Calculator
