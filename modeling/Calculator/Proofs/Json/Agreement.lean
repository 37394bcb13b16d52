import Calculator.Json.Record
import Calculator.Proofs.Json.Members
import Calculator.Proofs.Outcome

/-!
# Two readings of one text

A text that is read as something else may be a document all the same. Where two readers agree on
each part, with states that stand in some relation, the loops over the parts agree on the whole.
-/

namespace Calculator.Json

variable {σ τ α : Type} {R : σ → τ → Prop} {fuel : Nat} {cs rest : List Char}

/-- Two loops over the items of a list agree if they agree on every item. -/
theorem readItems_simulation {item : σ → Read σ} {item' : τ → Read τ}
    (hitem : ∀ s t cs s' rest, R s t → item s cs = .ok (s', rest) → ∃ t',
      item' t cs = .ok (t', rest) ∧ R s' t')
    {first : Bool} {s s' : σ} {t : τ} (hst : R s t)
    (h : readItems item fuel first s cs = .ok (s', rest)) :
    ∃ t', readItems item' fuel first t cs = .ok (t', rest) ∧ R s' t' := by
  induction fuel generalizing first s t cs with
  | zero => cases h
  | succ fuel ih =>
    have hnext : ∀ {cs'}, (item s cs' >>= fun next => readItems item fuel false next.1 next.2) =
      .ok (s', rest) →
        ∃ t', (item' t cs' >>= fun next => readItems item' fuel false next.1 next.2) =
          .ok (t', rest) ∧ R s' t' := by
      intro cs' h
      obtain ⟨⟨s₁, cs''⟩, hs₁, h⟩ := bind_eq_ok_iff.1 h
      obtain ⟨t₁, ht₁, hst₁⟩ := hitem _ _ _ _ _ hst hs₁
      obtain ⟨t', ht', hst'⟩ := ih hst₁ h
      exact ⟨t', bind_eq_ok_iff.2 ⟨_, ht₁, ht'⟩, hst'⟩
    unfold readItems at h ⊢
    split at h
    · cases h
    split at h
    · next hclose =>
      cases h
      exact ⟨t, by rw [if_pos hclose], hst⟩
    next hclose =>
    rw [if_neg hclose]
    split at h
    · next hfirst =>
      rw [if_pos hfirst]
      exact hnext h
    next hfirst =>
    rw [if_neg hfirst]
    split at h
    · next hcomma =>
      rw [if_pos hcomma]
      split at h
      · cases h
      next hspace' =>
      split at h
      · cases h
      next hclose' =>
      rw [if_neg hclose']
      exact hnext h
    · cases h

theorem readMembers_simulation {member : σ → String → Read σ} {member' : τ → String → Read τ}
    (hmember : ∀ s t key cs s' rest, R s t → member s key cs = .ok (s', rest) →
      ∃ t', member' t key cs = .ok (t', rest) ∧ R s' t')
    {first : Bool} {s s' : σ} {t : τ} (hst : R s t)
    (h : readMembers member fuel first s cs = .ok (s', rest)) :
    ∃ t', readMembers member' fuel first t cs = .ok (t', rest) ∧ R s' t' := by
  induction fuel generalizing first s t cs with
  | zero => cases h
  | succ fuel ih =>
    have hnext : ∀ {cs'},
        (readMember member fuel s cs' >>= fun next => readMembers member fuel false next.1 next.2) =
          .ok (s', rest) →
        ∃ t', (readMember member' fuel t cs' >>= fun next => readMembers
          member' fuel false next.1 next.2) =
          .ok (t', rest) ∧ R s' t' := by
      intro cs' h
      obtain ⟨⟨s₁, cs₂⟩, hs₁, h⟩ := bind_eq_ok_iff.1 h
      obtain ⟨⟨key, cs₁⟩, hkey, hs₁⟩ := bind_eq_ok_iff.1 hs₁
      obtain ⟨t₁, ht₁, hst₁⟩ := hmember _ _ _ _ _ _ hst hs₁
      obtain ⟨t', ht', hst'⟩ := ih hst₁ h
      exact ⟨t', bind_eq_ok_iff.2 ⟨_, bind_eq_ok_iff.2 ⟨_, hkey, ht₁⟩, ht'⟩, hst'⟩
    unfold readMembers at h ⊢
    split at h
    · cases h
    split at h
    · next hclose =>
      cases h
      exact ⟨t, by rw [if_pos hclose], hst⟩
    next hclose =>
    rw [if_neg hclose]
    split at h
    · next hfirst =>
      rw [if_pos hfirst]
      split at h
      · next hquote =>
        rw [if_pos hquote]
        exact hnext h
      · cases h
    next hfirst =>
    rw [if_neg hfirst]
    split at h
    · next hcomma =>
      rw [if_pos hcomma]
      split at h
      · cases h
      split at h
      · next hquote =>
        rw [if_pos hquote]
        exact hnext h
      · split at h <;> cases h
    · cases h

theorem readValue_of_readShape (depth : Nat) {shape : Shape α} {a : α}
    (harray : ∀ items, shape (.array items) ≠ .ok a)
    (hobject : ∀ ms, shape (.object ms) ≠ .ok a) (h : readShape shape fuel cs = .ok (a, rest)) :
    ∃ v, readValue fuel depth cs = .ok (v, rest) ∧ shape v = .ok a := by
  unfold readShape at h
  split at h
  · cases h
  next c cs' hspace =>
  by_cases hlist : c = '['
  · simp only [hlist, if_true] at h
    split at h <;> cases h
    next hshape => exact absurd hshape (harray [])
  by_cases hbrace : c = '\x7b'
  · simp only [hbrace, Char.reduceEq, if_false, if_true] at h
    split at h <;> cases h
    next hshape => exact absurd hshape (hobject [])
  simp only [hlist, hbrace, if_false] at h
  obtain ⟨⟨v, cs''⟩, hscalar, h⟩ := bind_eq_ok_iff.1 h
  dsimp only at h
  split at h <;> cases h
  next hshape =>
  refine ⟨v, ?_, hshape⟩
  cases depth with
  | zero => simp only [readValue, hspace, hlist, hbrace, or_self, if_false, hscalar]
  | succ depth => simp only [readValue, hspace, hlist, hbrace, if_false, hscalar]

theorem get?_cons (key : String) (m : String × Json) (ms : List (String × Json)) :
    get? key (.object (m :: ms)) = if m.1 = key then some m.2 else get? key (.object ms) := by
  by_cases h : m.1 = key <;> simp [get?, h]

theorem get?_put (key other : String) (v : Json) (ms : List (String × Json)) :
    get? key (.object (put other v ms)) = if other = key then some v else
      get? key (.object ms) := by
  induction ms with
  | nil => exact get?_cons key (other, v) []
  | cons m ms ih =>
    obtain ⟨k, w⟩ := m
    rw [put]
    split
    · exact get?_cons key (other, v) _
    split
    · next heq =>
      simp only [get?_cons, heq]
      split <;> rfl
    · next hne =>
      simp only [get?_cons, ih]
      split
      · next hkey => rw [if_neg (fun hother => hne (hother.trans hkey.symm))]
      · rfl

end Calculator.Json
