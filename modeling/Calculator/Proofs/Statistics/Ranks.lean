import Calculator.Proofs.Binary64.Order
import Calculator.Proofs.Statistics.Summary

/-!
# Order statistics

A number of a list has the rank by which it is found in the list put in order: it is known by how
many numbers come before it and how many behind it, in whatever order the list is given. The median
is made of the numbers of the middle ranks, and the least and the greatest number bound all others.
-/

namespace Calculator

open Binary64

variable {x y : Float} {values other : List Float} {before behind k : Nat}

namespace Statistics

/-- A number of a list that at most `before` of its numbers precede and that precedes at most
`behind` of them. -/
structure HasRank (values : List Float) (before behind : Nat) (x : Float) : Prop where
  mem : x ∈ values
  before_le : values.countP (precedes · x) ≤ before
  behind_le : values.countP (precedes x ·) ≤ behind

theorem arrange_perm (values : List Float) : (arrange values).Perm values :=
  List.mergeSort_perm _ _

theorem length_arrange (values : List Float) : (arrange values).length = values.length :=
  (arrange_perm values).length_eq

theorem pairwise_arrange (values : List Float) :
    (arrange values).Pairwise fun x y => orderKey x ≤ orderKey y := by
  have hsorted := @List.pairwise_mergeSort Float (fun x y => decide (orderKey x ≤ orderKey y))
    (fun x y z hxy hyz => decide_eq_true (le_trans (of_decide_eq_true hxy) (of_decide_eq_true hyz)))
    (fun x y => by simpa using le_total (orderKey x) (orderKey y)) values
  exact hsorted.imp of_decide_eq_true

theorem arrange_congr (h : other.Perm values) : arrange other = arrange values := by
  have hperm : (arrange other).Perm (arrange values) :=
    (arrange_perm other).trans (h.trans (arrange_perm values).symm)
  exact hperm.eq_of_pairwise (fun x y _ _ hxy hyx => orderKey_inj (le_antisymm hxy hyx))
    (pairwise_arrange other) (pairwise_arrange values)

theorem countP_le_of_drop {p : Float → Bool} (h : ∀ x ∈ values.drop k, p x = false) :
    values.countP p ≤ k := by
  have hbehind : (values.drop k).countP p = 0 :=
    List.countP_eq_zero.2 fun x hx => by rw [h x hx]; exact Bool.false_ne_true
  rw [← List.take_append_drop k values, List.countP_append, hbehind, Nat.add_zero]
  exact List.countP_le_length.trans (List.length_take_le _ _)

theorem countP_le_of_take {p : Float → Bool} (h : ∀ x ∈ values.take k, p x = false) :
    values.countP p ≤ values.length - k := by
  have hfront : (values.take k).countP p = 0 :=
    List.countP_eq_zero.2 fun x hx => by rw [h x hx]; exact Bool.false_ne_true
  rw [← List.take_append_drop k values, List.countP_append, hfront, Nat.zero_add,
    List.take_append_drop, ← List.length_drop]
  exact List.countP_le_length

theorem hasRank_arrange (hfinite : ∀ x ∈ values, x.isFinite = true)
    (hk : k < (arrange values).length) :
    HasRank values k (values.length - 1 - k) (arrange values)[k] := by
  have hmem : ∀ x ∈ arrange values, x.isFinite = true :=
    fun x hx => hfinite x ((arrange_perm values).mem_iff.1 hx)
  have hsorted := List.pairwise_iff_getElem.1 (pairwise_arrange values)
  have hat := hmem _ (List.getElem_mem hk)
  refine ⟨(arrange_perm values).mem_iff.1 (List.getElem_mem hk), ?_, ?_⟩
  · rw [← (arrange_perm values).countP_eq]
    apply countP_le_of_drop
    intro x hx
    obtain ⟨i, hi, rfl⟩ := List.getElem_of_mem hx
    rw [List.getElem_drop, ← Bool.not_eq_true, precedes_iff (hmem _ (List.getElem_mem _)) hat,
      Int.not_lt]
    rcases Nat.eq_zero_or_pos i with rfl | hpos
    · exact le_refl _
    · exact hsorted _ _ _ _ (by omega)
  · have hlast : values.length - 1 - k = (arrange values).length - (k + 1) := by
      rw [length_arrange]
      omega
    rw [← (arrange_perm values).countP_eq, hlast]
    apply countP_le_of_take
    intro x hx
    obtain ⟨i, hi, rfl⟩ := List.getElem_of_mem hx
    rw [List.length_take] at hi
    rw [List.getElem_take, ← Bool.not_eq_true, precedes_iff hat (hmem _ (List.getElem_mem _)),
      Int.not_lt]
    rcases Nat.lt_or_ge i k with hlt | hge
    · exact hsorted _ _ _ _ hlt
    · obtain rfl : i = k := by omega
      exact le_refl _

/-- Two numbers of one rank are the same: if one came before the other, the two would bound too few
numbers. -/
theorem HasRank.unique (hfinite : ∀ x ∈ values, x.isFinite = true)
    (hlength : before + behind < values.length)
    (hx : HasRank values before behind x) (hy : HasRank values before behind y) : x = y := by
  have hnot : ∀ {x y}, HasRank values before behind x → HasRank values before behind y →
      ¬orderKey x < orderKey y := by
    intro x y hx hy hlt
    have hfiniteX := hfinite x hx.mem
    have hfiniteY := hfinite y hy.mem
    have hcount : values.countP (fun z => !precedes x z) ≤ values.countP (precedes · y) := by
      refine List.countP_mono_left fun z hz hnot => ?_
      rw [Bool.not_eq_true', ← Bool.not_eq_true, precedes_iff hfiniteX (hfinite z hz)] at hnot
      rw [precedes_iff (hfinite z hz) hfiniteY]
      omega
    have hlength' := List.length_eq_countP_add_countP (precedes x ·) (l := values)
    have hbefore := hy.before_le
    have hbehind := hx.behind_le
    simp only [Bool.not_eq_true, Bool.decide_eq_false] at hlength'
    omega
  have hxy := hnot hx hy
  have hyx := hnot hy hx
  exact orderKey_inj (by omega)

theorem hasRank_iff (hfinite : ∀ x ∈ values, x.isFinite = true) (hk : k < (arrange values).length) :
    HasRank values k (values.length - 1 - k) x ↔ x = (arrange values)[k] := by
  have hlength := length_arrange values
  constructor
  · intro h
    exact h.unique hfinite (by omega) (hasRank_arrange hfinite hk)
  · rintro rfl
    exact hasRank_arrange hfinite hk

theorem median_congr (h : other.Perm values) : median other = median values := by
  rw [median, median, require, require, h.length_eq, arrange_congr h]

theorem median_odd (hodd : values.length % 2 = 1)
    (hk : (values.length - 1) / 2 < (arrange values).length) :
    median values = .ok (arrange values)[(values.length - 1) / 2] := by
  have hmiddle : values.length / 2 = (values.length - 1) / 2 := by omega
  rw [median, require_of_le (by omega), ← List.getD_eq_getElem (d := 0)]
  simp only [length_arrange, hodd, hmiddle]
  rfl

theorem median_even (heven : values.length % 2 = 0)
    (hk : values.length / 2 - 1 < (arrange values).length)
    (hk' : values.length / 2 < (arrange values).length) :
    median values = .ok
      (((arrange values)[values.length / 2 - 1] + (arrange values)[values.length / 2]) / 2) := by
  rw [length_arrange] at hk hk'
  rw [median, require_of_le (by omega), ← List.getD_eq_getElem (d := 0),
    ← List.getD_eq_getElem (d := 0)]
  simp only [length_arrange, heven]
  rfl

structure IsMinimum (values : List Float) (x : Float) : Prop where
  exists_beq : ∃ y ∈ values, (x == y) = true
  le : ∀ y ∈ values, x ≤ y

structure IsMaximum (values : List Float) (x : Float) : Prop where
  exists_beq : ∃ y ∈ values, (x == y) = true
  le : ∀ y ∈ values, y ≤ x

/-- A choice between two numbers that goes by a key, and to which the start of a list is no
rival. -/
structure ChoosesBy (pick : Float → Float → Float) (start : Float) (key : Float → Int) : Prop where
  eq_or : ∀ x y, pick x y = x ∨ pick x y = y
  key_le : ∀ x y, x.isFinite = true → y.isFinite = true → key (pick x y) ≤ key x ∧
    key (pick x y) ≤ key y
  pick_start : ∀ y, y.isFinite = true → pick start y = y
  beq_iff : ∀ x y, x.isFinite = true → y.isFinite = true → ((x == y) = true ↔ key x = key y)

theorem choosesBy_smaller : ChoosesBy smaller (1 / 0) signedPattern where
  eq_or := smaller_eq_or
  key_le x y hx hy := by
    rw [smaller, isNaN_of_isFinite hx, isNaN_of_isFinite hy, if_neg Bool.false_ne_true,
      if_neg Bool.false_ne_true]
    split
    · next hlt => exact ⟨le_of_lt ((lt_iff hy hx).1 hlt), le_refl _⟩
    · next hnot => exact ⟨le_refl _, Int.not_lt.1 ((lt_iff hy hx).not.1 hnot)⟩
  pick_start y := smaller_infinity
  beq_iff x y := Binary64.beq_iff

theorem choosesBy_larger : ChoosesBy larger (-1 / 0) fun x => -signedPattern x where
  eq_or := larger_eq_or
  key_le x y hx hy := by
    rw [larger, isNaN_of_isFinite hx, isNaN_of_isFinite hy, if_neg Bool.false_ne_true,
      if_neg Bool.false_ne_true]
    split
    · next hlt => exact ⟨neg_le_neg (le_of_lt ((lt_iff hx hy).1 hlt)), le_refl _⟩
    · next hnot => exact ⟨le_refl _, neg_le_neg (Int.not_lt.1 ((lt_iff hx hy).not.1 hnot))⟩
  pick_start y := larger_infinity
  beq_iff x y hx hy := by rw [Binary64.beq_iff hx hy, neg_inj]

namespace ChoosesBy

variable {pick : Float → Float → Float} {start : Float} {key : Float → Int}
  (h : ChoosesBy pick start key)

include h

theorem foldl_of_isFinite (hx : x.isFinite = true) (hfinite : ∀ y ∈ values, y.isFinite = true) :
    values.foldl pick x ∈ x :: values ∧ ∀ y ∈ x :: values, key (values.foldl pick x) ≤ key y := by
  induction values generalizing x with
  | nil => exact ⟨List.mem_cons_self, List.forall_mem_singleton.2 (le_refl _)⟩
  | cons y rest ih =>
    rw [List.forall_mem_cons] at hfinite
    obtain ⟨hleft, hright⟩ := h.key_le x y hx hfinite.1
    rw [List.foldl_cons]
    rcases h.eq_or x y with hpick | hpick
    · obtain ⟨hmem, hle⟩ := ih hx hfinite.2
      rw [List.forall_mem_cons] at hle
      rw [hpick] at hright ⊢
      have hmem' : rest.foldl pick x ∈ x :: y :: rest :=
        List.mem_cons.2 ((List.mem_cons.1 hmem).imp_right (List.mem_cons_of_mem y))
      exact ⟨hmem', List.forall_mem_cons.2 ⟨hle.1, List.forall_mem_cons.2
        ⟨hle.1.trans hright, hle.2⟩⟩⟩
    · obtain ⟨hmem, hle⟩ := ih hfinite.1 hfinite.2
      rw [List.forall_mem_cons] at hle
      rw [hpick] at hleft ⊢
      exact ⟨List.mem_cons_of_mem _ hmem, List.forall_mem_cons.2
        ⟨hle.1.trans hleft, List.forall_mem_cons.2 hle⟩⟩

theorem foldl (hne : values ≠ []) (hfinite : ∀ y ∈ values, y.isFinite = true) :
    values.foldl pick start ∈ values ∧ ∀ y ∈ values, key (values.foldl pick start) ≤ key y := by
  obtain ⟨y, rest, rfl⟩ := List.exists_cons_of_ne_nil hne
  rw [List.forall_mem_cons] at hfinite
  rw [List.foldl_cons, h.pick_start y hfinite.1]
  exact h.foldl_of_isFinite hfinite.1 hfinite.2

theorem foldl_congr (hperm : other.Perm values) (hne : values ≠ [])
    (hfinite : ∀ y ∈ values, y.isFinite = true) :
    (other.foldl pick start == values.foldl pick start) = true := by
  have hfinite' : ∀ y ∈ other, y.isFinite = true := fun y hy => hfinite y (hperm.mem_iff.1 hy)
  obtain ⟨hmem, hle⟩ := h.foldl hne hfinite
  obtain ⟨hmem', hle'⟩ := h.foldl (fun hnil => hne (List.perm_nil.1 (hnil ▸ hperm.symm))) hfinite'
  rw [h.beq_iff _ _ (hfinite' _ hmem') (hfinite _ hmem)]
  exact le_antisymm (hle' _ (hperm.mem_iff.2 hmem)) (hle _ (hperm.mem_iff.1 hmem'))

end ChoosesBy

theorem min_eq (hne : values ≠ []) : min values = .ok (values.foldl smaller (1 / 0)) := by
  rw [min, require_of_le (List.length_pos_of_ne_nil hne)]
  rfl

theorem max_eq (hne : values ≠ []) : max values = .ok (values.foldl larger (-1 / 0)) := by
  rw [max, require_of_le (List.length_pos_of_ne_nil hne)]
  rfl

theorem isMinimum_foldl (hne : values ≠ []) (hfinite : ∀ x ∈ values, x.isFinite = true) :
    IsMinimum values (values.foldl smaller (1 / 0)) := by
  obtain ⟨hmem, hle⟩ := choosesBy_smaller.foldl hne hfinite
  have hleast := hfinite _ hmem
  exact ⟨⟨_, hmem, (beq_iff hleast hleast).2 rfl⟩,
    fun y hy => (le_iff hleast (hfinite y hy)).2 (hle y hy)⟩

theorem isMaximum_foldl (hne : values ≠ []) (hfinite : ∀ x ∈ values, x.isFinite = true) :
    IsMaximum values (values.foldl larger (-1 / 0)) := by
  obtain ⟨hmem, hle⟩ := choosesBy_larger.foldl hne hfinite
  have hgreatest := hfinite _ hmem
  exact ⟨⟨_, hmem, (beq_iff hgreatest hgreatest).2 rfl⟩, fun y hy =>
    (le_iff (hfinite y hy) hgreatest).2 (neg_le_neg_iff.1 (hle y hy))⟩

/-- The median and the extremes of finite numbers by their ranks. None of them depends on the order
of the list, the median not even in the sign of a zero. -/
theorem order_statistics (hne : values ≠ []) (hfinite : ∀ x ∈ values, x.isFinite = true) :
    (∀ other, other.Perm values → median other = median values) ∧
    (values.length % 2 = 1 → ∃ x, median values = .ok x ∧
      ∀ z, HasRank values ((values.length - 1) / 2) ((values.length - 1) / 2) z ↔ z = x) ∧
    (values.length % 2 = 0 → ∃ x y, median values = .ok ((x + y) / 2) ∧
      (∀ z, HasRank values (values.length / 2 - 1) (values.length / 2) z ↔ z = x) ∧
      ∀ z, HasRank values (values.length / 2) (values.length / 2 - 1) z ↔ z = y) ∧
    (∃ x, min values = .ok x ∧ IsMinimum values x ∧
      ∀ other, other.Perm values → ∃ y, min other = .ok y ∧ (y == x) = true) ∧
    ∃ x, max values = .ok x ∧ IsMaximum values x ∧
      ∀ other, other.Perm values → ∃ y, max other = .ok y ∧ (y == x) = true := by
  have hpos : 0 < values.length := List.length_pos_of_ne_nil hne
  have hlength := length_arrange values
  have hother : ∀ {other}, other.Perm values → other ≠ [] :=
    fun hperm hnil => hne (List.perm_nil.1 (hnil ▸ hperm.symm))
  refine ⟨fun other => median_congr, fun hodd => ?_, fun heven => ?_, ?_, ?_⟩
  · have hk : (values.length - 1) / 2 < (arrange values).length := by omega
    have hrest : values.length - 1 - (values.length - 1) / 2 = (values.length - 1) / 2 := by omega
    refine ⟨_, median_odd hodd hk, fun z => ?_⟩
    rw [← hasRank_iff hfinite hk, hrest]
  · have hk : values.length / 2 - 1 < (arrange values).length := by omega
    have hk' : values.length / 2 < (arrange values).length := by omega
    have hrest : values.length - 1 - (values.length / 2 - 1) = values.length / 2 := by omega
    have hrest' : values.length - 1 - values.length / 2 = values.length / 2 - 1 := by omega
    refine ⟨_, _, median_even heven hk hk', fun z => ?_, fun z => ?_⟩
    · rw [← hasRank_iff hfinite hk, hrest]
    · rw [← hasRank_iff hfinite hk', hrest']
  · exact ⟨_, min_eq hne, isMinimum_foldl hne hfinite, fun other hperm =>
      ⟨_, min_eq (hother hperm), choosesBy_smaller.foldl_congr hperm hne hfinite⟩⟩
  · exact ⟨_, max_eq hne, isMaximum_foldl hne hfinite, fun other hperm =>
      ⟨_, max_eq (hother hperm), choosesBy_larger.foldl_congr hperm hne hfinite⟩⟩

theorem order_statistics_zeros :
    ([0.0, 3, -0.0] : List Float) ≠ [] ∧ (∀ x ∈ ([0.0, 3, -0.0] : List Float), x.isFinite = true) ∧
      median [0.0, 3, -0.0] = .ok 0.0 ∧ median [-0.0, 3, 0.0] = .ok 0.0 := by
  have hne : ([0.0, 3, -0.0] : List Float) ≠ [] := List.cons_ne_nil _ _
  have hfinite : ∀ x ∈ ([0.0, 3, -0.0] : List Float), x.isFinite = true := by decide +kernel
  obtain ⟨hperm, hodd, -⟩ := order_statistics hne hfinite
  obtain ⟨x, hmedian, hrank⟩ := hodd rfl
  obtain rfl : 0.0 = x := (hrank 0.0).1 ⟨List.mem_cons_self, by decide +kernel, by decide +kernel⟩
  have hswap : ([-0.0, 3, 0.0] : List Float).Perm [0.0, 3, -0.0] := (List.reverse_perm _).symm
  exact ⟨hne, hfinite, hmedian, (hperm _ hswap).trans hmedian⟩

end Statistics

end Calculator
