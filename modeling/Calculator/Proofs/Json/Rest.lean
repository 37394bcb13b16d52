import Calculator.Json.Record
import Calculator.Proofs.Outcome

/-!
# What a reader leaves

A reader takes characters from the front of a text, and what it leaves is a rest of that text. What
the loops over items and members keep at each step within a text, they keep as a whole.
-/

namespace Calculator.Json

variable {α σ : Type} {fuel : Nat} {c : Char} {cs rest text : List Char}

def LeavesRest (read : Read α) : Prop :=
  ∀ ⦃cs a rest⦄, read cs = .ok (a, rest) → rest <:+ cs

theorem suffix_of_skipSpace (h : skipSpace cs = rest) : rest <:+ cs :=
  h ▸ List.dropWhile_suffix isSpace

theorem suffix_behind_skipSpace (h : skipSpace cs = c :: rest) : rest <:+ cs :=
  (List.suffix_cons c rest).trans (suffix_of_skipSpace h)

theorem leavesRest_readWord (word : List Char) : LeavesRest (readWord word) := by
  induction word with
  | nil =>
    rintro cs a rest ⟨⟩
    exact List.suffix_rfl
  | cons w word ih =>
    intro cs a rest h
    cases cs with
    | nil => cases h
    | cons c cs =>
      rw [readWord] at h
      split at h
      · exact (ih h).trans (List.suffix_cons c cs)
      · cases h

theorem leavesRest_exponentEnd (negative exponentNegative : Bool) (digits : Nat)
    (exponent : Int) (value : Nat) :
    LeavesRest (readExponentDigits.finish negative exponentNegative digits exponent value) := by
  intro cs a rest h
  simp only [readExponentDigits.finish] at h
  split at h <;> cases h
  exact List.suffix_rfl

theorem leavesRest_readExponentDigits (negative exponentNegative : Bool)
    (digits : Nat) (exponent : Int) (value : Nat) :
      LeavesRest (readExponentDigits negative exponentNegative digits exponent value) := by
  intro cs a rest h
  induction cs generalizing value with
  | nil => exact leavesRest_exponentEnd _ _ _ _ _ h
  | cons c cs ih =>
    simp only [readExponentDigits] at h
    split at h
    · split at h
      · exact (ih _ h).trans (List.suffix_cons c cs)
      split at h
      · cases h
      · cases h
        exact (List.dropWhile_suffix isDigit).trans (List.suffix_cons c cs)
    · exact leavesRest_exponentEnd _ _ _ _ _ h

theorem leavesRest_readExponent (negative : Bool) (digits : Nat) (exponent : Int) :
    LeavesRest (readExponent negative digits exponent) := by
  intro cs a rest h
  unfold readExponent at h
  split at h
  next exponentNegative digitChars hsign =>
  have hbehind : digitChars <:+ cs := by
    split at hsign <;> cases hsign
    · exact List.suffix_cons _ _
    · exact List.suffix_cons _ _
    · exact List.suffix_rfl
  split at h
  · cases h
  split at h
  · exact ((leavesRest_readExponentDigits _ _ _ _ _ h).trans (List.suffix_cons _ _)).trans hbehind
  · cases h

theorem leavesRest_readScale (negative : Bool) (digits : Nat) (exponent : Int) :
    LeavesRest (readScale negative digits exponent) := by
  intro cs a rest h
  unfold readScale at h
  split at h
  · exact (leavesRest_readExponent _ _ _ h).trans (List.suffix_cons _ _)
  · exact (leavesRest_readExponent _ _ _ h).trans (List.suffix_cons _ _)
  · split at h <;> cases h
    exact List.suffix_rfl

theorem leavesRest_readFraction (negative : Bool) (digits : Nat) :
    LeavesRest (readFraction negative digits) := by
  intro cs a rest h
  simp only [readFraction] at h
  split at h
  · split at h <;> cases h
  · exact (leavesRest_readScale _ _ _ h).trans (List.dropWhile_suffix isDigit)

theorem leavesRest_readAfterDigits (negative : Bool) (digits : Nat) :
    LeavesRest (readAfterDigits negative digits) := by
  intro cs a rest h
  unfold readAfterDigits at h
  split at h
  · exact (leavesRest_readFraction _ _ h).trans (List.suffix_cons _ _)
  · exact (leavesRest_readExponent _ _ _ h).trans (List.suffix_cons _ _)
  · exact (leavesRest_readExponent _ _ _ h).trans (List.suffix_cons _ _)
  · split at h
    · split at h <;> cases h <;> exact List.suffix_rfl
    · exact leavesRest_readScale _ _ _ h

theorem leavesRest_readNumber (negative : Bool) : LeavesRest (readNumber negative) := by
  intro cs a rest h
  unfold readNumber at h
  split at h
  · cases h
  split at h
  · split at h
    · split at h
      · cases h
      · exact (leavesRest_readAfterDigits _ _ h).trans (List.suffix_cons _ _)
    · exact (leavesRest_readAfterDigits _ _ h).trans (List.suffix_cons _ _)
  split at h
  · exact (leavesRest_readAfterDigits _ _ h).trans (List.dropWhile_suffix isDigit)
  · cases h

theorem leavesRest_readHexUnit : LeavesRest readHexUnit := by
  intro cs a rest h
  unfold readHexUnit at h
  split at h
  · cases h
  split at h <;> cases h
  exact List.drop_suffix 4 cs

theorem leavesRest_readPairChar (expected : Char) : LeavesRest (readPairChar expected) := by
  intro cs a rest h
  unfold readPairChar at h
  split at h
  · cases h
  split at h <;> cases h
  exact List.suffix_cons _ _

theorem leavesRest_readHexEscape : LeavesRest readHexEscape := by
  intro cs a rest h
  obtain ⟨⟨n, cs₁⟩, hunit, h⟩ := bind_eq_ok_iff.1 h
  have hfirst := leavesRest_readHexUnit hunit
  dsimp only at h
  split at h
  · cases h
  split at h
  · obtain ⟨⟨_, cs₂⟩, hslash, h⟩ := bind_eq_ok_iff.1 h
    obtain ⟨⟨_, cs₃⟩, hmark, h⟩ := bind_eq_ok_iff.1 h
    obtain ⟨⟨m, cs₄⟩, hlow, h⟩ := bind_eq_ok_iff.1 h
    dsimp only at h
    split at h
    · rw [← (Prod.mk.inj (Except.ok.inj h)).2]
      have hsecond : cs₄ <:+ cs₃ := leavesRest_readHexUnit hlow
      have hbetween : cs₃ <:+ cs₁ := (leavesRest_readPairChar 'u' hmark).trans
        (leavesRest_readPairChar '\\' hslash)
      exact (hsecond.trans hbetween).trans hfirst
    · cases h
  · cases h
    exact hfirst

theorem leavesRest_readEscape : LeavesRest readEscape := by
  intro cs a rest h
  unfold readEscape at h
  split at h
  · cases h
  split at h
  · cases h
    exact List.suffix_cons _ _
  split at h
  · exact (leavesRest_readHexEscape h).trans (List.suffix_cons _ _)
  · cases h

theorem leavesRest_readChars (fuel : Nat) (done : List Char) :
    LeavesRest (readChars fuel done) := by
  intro cs a rest h
  induction fuel generalizing done cs with
  | zero => cases h
  | succ fuel ih =>
    unfold readChars at h
    split at h
    · cases h
    · cases h
    · next heq =>
      cases heq
      split at h
      · cases h
        exact List.suffix_cons _ _
      split at h
      · obtain ⟨⟨e, cs⟩, hescape, h⟩ := bind_eq_ok_iff.1 h
        exact ((ih _ h).trans (leavesRest_readEscape hescape)).trans (List.suffix_cons _ _)
      split at h
      · cases h
      · exact (ih _ h).trans (List.suffix_cons _ _)

theorem leavesRest_readString (fuel : Nat) : LeavesRest (readString fuel) := by
  intro cs a rest h
  obtain ⟨⟨chars, cs⟩, hchars, h⟩ := bind_eq_ok_iff.1 h
  cases h
  exact leavesRest_readChars fuel [] hchars

theorem leavesRest_readScalar (fuel : Nat) (c : Char) {a : Json}
    (h : readScalar fuel c cs = .ok (a, rest)) :
    rest <:+ c :: cs := by
  have hword : ∀ {v : Json} (word : List Char), (readWord word cs >>= fun next => pure (v, next.2))
    = .ok (a, rest) →
      rest <:+ c :: cs := by
    intro v word h
    obtain ⟨⟨_, cs'⟩, hword, h⟩ := bind_eq_ok_iff.1 h
    cases h
    exact (leavesRest_readWord word hword).trans (List.suffix_cons c cs)
  unfold readScalar at h
  split at h
  · exact hword _ h
  split at h
  · exact hword _ h
  split at h
  · exact hword _ h
  split at h
  · exact (leavesRest_readNumber true h).trans (List.suffix_cons c cs)
  split at h
  · exact leavesRest_readNumber false h
  split at h
  · obtain ⟨⟨s, cs'⟩, hstring, h⟩ := bind_eq_ok_iff.1 h
    cases h
    exact (leavesRest_readString fuel hstring).trans (List.suffix_cons c cs)
  · cases h

theorem leavesRest_readShape (shape : Shape α) (fuel : Nat) :
    LeavesRest (readShape shape fuel) := by
  intro cs a rest h
  unfold readShape at h
  split at h
  · cases h
  next c cs' hspace =>
  dsimp only at h
  generalize (if c = '[' then some (Json.array []) else if c = '\x7b' then
    some (.object []) else none) = whole at h
  split at h
  · split at h <;> cases h
    exact suffix_of_skipSpace hspace
  · obtain ⟨⟨v, cs''⟩, hscalar, h⟩ := bind_eq_ok_iff.1 h
    dsimp only at h
    split at h <;> cases h
    exact (leavesRest_readScalar fuel c hscalar).trans (suffix_of_skipSpace hspace)

theorem readShape_unexpected {expected : String} {result : α × List Char}
    (fuel : Nat) (cs : List Char) :
    readShape (fun v => Shape.unexpected v expected) fuel cs ≠ .ok result := by
  intro h
  unfold readShape at h
  split at h
  · cases h
  next c cs' hspace =>
  dsimp only at h
  generalize (if c = '[' then some (Json.array []) else if c = '\x7b' then
    some (.object []) else none) = whole at h
  split at h
  · cases h
  · obtain ⟨⟨v, cs''⟩, -, h⟩ := bind_eq_ok_iff.1 h
    cases h

theorem leavesRest_readColon : LeavesRest readColon := by
  intro cs a rest h
  unfold readColon at h
  split at h
  · cases h
  next hspace =>
  split at h <;> cases h
  exact suffix_behind_skipSpace hspace

/-- What every item keeps that lies in a text, the loop over the items of a list in it keeps. -/
theorem readItems_rest_invariant {I : σ → Prop} {item : σ → Read σ}
    (hitem : ∀ s cs s' rest, I s → cs <:+ text → item s cs = .ok (s', rest) → I s' ∧ rest <:+ cs)
    {first : Bool} {s s' : σ} (hs : I s) (hcs : cs <:+ text)
    (h : readItems item fuel first s cs = .ok (s', rest)) :
    I s' ∧ rest <:+ cs := by
  induction fuel generalizing first s cs with
  | zero => cases h
  | succ fuel ih =>
    have hnext : ∀ {cs'}, cs' <:+ cs →
        (item s cs' >>= fun next => readItems item fuel false next.1 next.2) = .ok (s', rest) →
          I s' ∧ rest <:+ cs := by
      intro cs' hcs' h
      obtain ⟨⟨t, cs''⟩, ht, h⟩ := bind_eq_ok_iff.1 h
      have hstep := hitem _ _ _ _ hs (hcs'.trans hcs) ht
      have hrun := ih hstep.1 ((hstep.2.trans hcs').trans hcs) h
      exact ⟨hrun.1, (hrun.2.trans hstep.2).trans hcs'⟩
    unfold readItems at h
    split at h
    · cases h
    next c cs' hspace =>
    split at h
    · cases h
      exact ⟨hs, suffix_behind_skipSpace hspace⟩
    split at h
    · exact hnext (suffix_of_skipSpace hspace) h
    split at h
    · split at h
      · cases h
      next d cs'' hspace' =>
      split at h
      · cases h
      · exact hnext ((suffix_of_skipSpace hspace').trans (suffix_behind_skipSpace hspace)) h
    · cases h

theorem readMembers_rest_invariant {I : σ → Prop} {member : σ → String → Read σ}
    (hmember : ∀ s key cs s' rest, I s → cs <:+ text → member s key cs = .ok (s', rest) →
      I s' ∧ rest <:+ cs)
    {first : Bool} {s s' : σ} (hs : I s) (hcs : cs <:+ text)
    (h : readMembers member fuel first s cs = .ok (s', rest)) : I s' ∧ rest <:+ cs := by
  induction fuel generalizing first s cs with
  | zero => cases h
  | succ fuel ih =>
    have hnext : ∀ {cs'}, cs' <:+ cs →
        (readMember member fuel s cs' >>= fun next => readMembers member fuel false next.1 next.2) =
          .ok (s', rest) →
        I s' ∧ rest <:+ cs := by
      intro cs' hcs' h
      obtain ⟨⟨t, cs₂⟩, ht, h⟩ := bind_eq_ok_iff.1 h
      obtain ⟨⟨key, cs₁⟩, hkey, ht⟩ := bind_eq_ok_iff.1 ht
      have hbehind : cs₁ <:+ cs := (leavesRest_readString fuel hkey).trans hcs'
      have hstep := hmember _ _ _ _ _ hs (hbehind.trans hcs) ht
      have hrun := ih hstep.1 ((hstep.2.trans hbehind).trans hcs) h
      exact ⟨hrun.1, (hrun.2.trans hstep.2).trans hbehind⟩
    unfold readMembers at h
    split at h
    · cases h
    next c cs' hspace =>
    split at h
    · cases h
      exact ⟨hs, suffix_behind_skipSpace hspace⟩
    split at h
    · split at h
      · exact hnext (suffix_behind_skipSpace hspace) h
      · cases h
    split at h
    · split at h
      · cases h
      next d cs'' hspace' =>
      split at h
      · exact hnext ((suffix_behind_skipSpace hspace').trans (suffix_behind_skipSpace hspace)) h
      · split at h <;> cases h
    · cases h

theorem leavesRest_readValue (fuel depth : Nat) : LeavesRest (readValue fuel depth) := by
  intro cs v rest h
  induction depth generalizing cs v rest with
  | zero =>
    unfold readValue at h
    split at h
    · cases h
    next c cs' hspace =>
    split at h
    · cases h
    · exact (leavesRest_readScalar fuel c h).trans (suffix_of_skipSpace hspace)
  | succ depth ih =>
    unfold readValue at h
    split at h
    · cases h
    next c cs' hspace =>
    have hbehind : cs' <:+ cs := suffix_behind_skipSpace hspace
    split at h
    · obtain ⟨⟨items, cs''⟩, hitems, h⟩ := bind_eq_ok_iff.1 h
      cases h
      refine (readItems_rest_invariant (I := fun _ => True)
        ?_ trivial hbehind hitems).2.trans hbehind
      intro done cs done' rest _ _ hitem
      obtain ⟨⟨v, cs⟩, hv, hitem⟩ := bind_eq_ok_iff.1 hitem
      cases hitem
      exact ⟨trivial, ih hv⟩
    split at h
    · obtain ⟨⟨ms, cs''⟩, hms, h⟩ := bind_eq_ok_iff.1 h
      cases h
      refine (readMembers_rest_invariant (I := fun _ => True)
        ?_ trivial hbehind hms).2.trans hbehind
      intro done key cs done' rest _ _ hmember
      obtain ⟨⟨_, cs⟩, hcolon, hmember⟩ := bind_eq_ok_iff.1 hmember
      obtain ⟨⟨v, cs⟩, hv, hmember⟩ := bind_eq_ok_iff.1 hmember
      cases hmember
      exact ⟨trivial, (ih hv).trans (leavesRest_readColon hcolon)⟩
    · exact (leavesRest_readScalar fuel c h).trans (suffix_of_skipSpace hspace)

end Calculator.Json
