import Calculator.Proofs.Json.Rest

/-!
# What reading a record keeps

Skipping a value leaves a rest of the text, as reading one does. So what each field of a record
keeps within a text, the record keeps, in whatever order its fields stand and whatever stands
between them.
-/

namespace Calculator.Json

variable {α σ : Type} {fuel : Nat} {c : Char} {cs rest text : List Char}

def SkipsToRest (skip : List Char → Except Fault (List Char)) : Prop :=
  ∀ ⦃cs rest⦄, skip cs = .ok rest → rest <:+ cs

theorem LeavesRest.map_snd {read : Read α} (h : LeavesRest read) :
    SkipsToRest fun cs => (·.2) <$> read cs := by
  intro cs rest hskip
  cases hread : read cs with
  | error fault => simp [hread] at hskip
  | ok result =>
    simp only [hread, Except.map_ok, Except.ok.injEq] at hskip
    exact hskip ▸ h hread

theorem skipsToRest_skipExponent : SkipsToRest skipExponent := by
  intro cs rest h
  simp only [skipExponent] at h
  split at h
  · cases h
  next c cs' hsign =>
  have hdigits : c :: cs' <:+ cs := by
    rw [← hsign]
    split
    · exact List.suffix_cons _ _
    · exact List.suffix_cons _ _
    · exact List.suffix_rfl
  split at h <;> cases h
  exact ((List.dropWhile_suffix isDigit).trans (List.suffix_cons c cs')).trans hdigits

theorem skipsToRest_skipExponent? : SkipsToRest skipExponent? := by
  intro cs rest h
  unfold skipExponent? at h
  split at h
  · exact (skipsToRest_skipExponent h).trans (List.suffix_cons _ _)
  · exact (skipsToRest_skipExponent h).trans (List.suffix_cons _ _)
  · cases h
    exact List.suffix_rfl

theorem skipsToRest_skipFraction? : SkipsToRest skipFraction? := by
  intro cs rest h
  unfold skipFraction? at h
  split at h
  · next c cs' =>
    split at h
    · have hdrop : cs'.dropWhile isDigit <:+ '.' :: c :: cs' :=
        (List.dropWhile_suffix isDigit).trans
          ((List.suffix_cons c cs').trans (List.suffix_cons '.' _))
      exact (skipsToRest_skipExponent? h).trans hdrop
    · cases h
  · cases h
  · exact skipsToRest_skipExponent? h

theorem skipsToRest_skipNumber : SkipsToRest skipNumber := by
  intro cs rest h
  unfold skipNumber at h
  split at h
  · cases h
  split at h
  · split at h
    · split at h
      · cases h
      · exact (skipsToRest_skipFraction? h).trans (List.suffix_cons _ _)
    · cases h
      exact List.nil_suffix
  split at h
  · exact (skipsToRest_skipFraction? h).trans
      ((List.dropWhile_suffix isDigit).trans (List.suffix_cons _ _))
  · cases h

theorem skipsToRest_skipEscape : SkipsToRest skipEscape := by
  intro cs rest h
  unfold skipEscape at h
  split at h
  · cases h
  split at h
  · cases h
    exact List.suffix_cons _ _
  split at h
  · exact (leavesRest_readHexUnit.map_snd h).trans (List.suffix_cons _ _)
  · cases h

theorem skipsToRest_skipString (fuel : Nat) : SkipsToRest (skipString fuel) := by
  intro cs rest h
  induction fuel generalizing cs with
  | zero => cases h
  | succ fuel ih =>
    cases cs with
    | nil => cases h
    | cons c cs =>
      rw [skipString] at h
      split at h
      · cases h
        exact List.suffix_cons c _
      split at h
      · obtain ⟨cs', hescape, h⟩ := bind_eq_ok_iff.1 h
        exact ((ih h).trans (skipsToRest_skipEscape hescape)).trans (List.suffix_cons c cs)
      split at h
      · cases h
      · exact (ih h).trans (List.suffix_cons c cs)

theorem suffix_of_skipScalar (h : skipScalar fuel c cs = .ok rest) : rest <:+ c :: cs := by
  unfold skipScalar at h
  split at h
  · exact ((leavesRest_readWord _).map_snd h).trans (List.suffix_cons c cs)
  split at h
  · exact ((leavesRest_readWord _).map_snd h).trans (List.suffix_cons c cs)
  split at h
  · exact ((leavesRest_readWord _).map_snd h).trans (List.suffix_cons c cs)
  split at h
  · exact (skipsToRest_skipNumber h).trans (List.suffix_cons c cs)
  split at h
  · exact skipsToRest_skipNumber h
  split at h
  · exact (skipsToRest_skipString fuel h).trans (List.suffix_cons c cs)
  · cases h

theorem Enclosure.skipsToRest_skipKey (e : Enclosure) (fuel : Nat) :
    SkipsToRest (e.skipKey fuel) := by
  intro cs rest h
  cases e with
  | list =>
    cases h
    exact List.suffix_rfl
  | object =>
    unfold Enclosure.skipKey at h
    dsimp only at h
    split at h
    · cases h
    next c cs' hspace =>
    split at h
    · obtain ⟨cs'', hkey, h⟩ := bind_eq_ok_iff.1 h
      split at h
      · cases h
      next d rest' hcolon =>
      split at h <;> cases h
      exact ((suffix_behind_skipSpace hcolon).trans (skipsToRest_skipString fuel hkey)).trans
        (suffix_behind_skipSpace hspace)
    · cases h

theorem skipsToRest_skip (fuel : Nat) :
    (∀ around, SkipsToRest (skipIn fuel around)) ∧
    (∀ e around, SkipsToRest (skipFirst fuel e around)) ∧
    ∀ around, SkipsToRest (skipRest fuel around) := by
  induction fuel with
  | zero =>
    refine ⟨nofun, nofun, fun around => ?_⟩
    cases around with
    | nil =>
      rintro cs rest ⟨⟩
      exact List.suffix_rfl
    | cons e around => nofun
  | succ fuel ih =>
    obtain ⟨hin, hfirst, hrest⟩ := ih
    refine ⟨fun around cs rest h => ?_, fun e around cs rest h => ?_, fun around cs rest h => ?_⟩
    · rw [skipIn] at h
      split at h
      · cases h
      next c cs' hspace =>
      split at h
      · exact (hfirst _ _ h).trans (suffix_behind_skipSpace hspace)
      split at h
      · exact (hfirst _ _ h).trans (suffix_behind_skipSpace hspace)
      · obtain ⟨cs'', hscalar, h⟩ := bind_eq_ok_iff.1 h
        exact ((hrest _ h).trans (suffix_of_skipScalar hscalar)).trans (suffix_of_skipSpace hspace)
    · rw [skipFirst] at h
      split at h
      · cases h
      next c cs' hspace =>
      split at h
      · exact (hrest _ h).trans (suffix_behind_skipSpace hspace)
      · obtain ⟨cs'', hkey, h⟩ := bind_eq_ok_iff.1 h
        exact ((hin _ h).trans (e.skipsToRest_skipKey fuel hkey)).trans (suffix_of_skipSpace hspace)
    · cases around with
      | nil =>
        cases h
        exact List.suffix_rfl
      | cons e around =>
        rw [skipRest] at h
        split at h
        · cases h
        next c cs' hspace =>
        split at h
        · exact (hrest _ h).trans (suffix_behind_skipSpace hspace)
        split at h
        · obtain ⟨cs'', hkey, h⟩ := bind_eq_ok_iff.1 h
          exact ((hin _ h).trans (e.skipsToRest_skipKey fuel hkey)).trans
            (suffix_behind_skipSpace hspace)
        · cases h

theorem skipsToRest_skipValue : SkipsToRest skipValue :=
  fun _ _ h => (skipsToRest_skip _).1 [] h

/-- What reading a field in a text keeps. -/
def RecordField.Keeps (field : RecordField σ) (text : List Char) (I : σ → Prop) : Prop :=
  ∀ ⦃s cs s' rest⦄, I s → cs <:+ text → field.read s cs = .ok (.ok s', rest) → I s' ∧ rest <:+ cs

section Records

variable {I : σ → Prop} {s s' : σ}

theorem eq_of_settle {after : List Char → List Char}
    {result : Except Mismatch α × List Char} {a : α}
    (h : settle after result = .ok (a, rest)) : result = (.ok a, rest) := by
  obtain ⟨result, rest'⟩ := result
  cases result with
  | ok b => cases h; rfl
  | error m => cases h

theorem readField_rest_invariant {fields : List (RecordField σ)} {key : String}
    (hfields : ∀ field ∈ fields, field.Keeps text I) (hs : I s) (hcs : cs <:+ text)
    (h : readField fields s key cs = .ok (s', rest)) : I s' ∧ rest <:+ cs := by
  unfold readField at h
  split at h
  · obtain ⟨⟨_, cs₁⟩, hcolon, h⟩ := bind_eq_ok_iff.1 h
    obtain ⟨cs₂, hskip, h⟩ := bind_eq_ok_iff.1 h
    cases h
    exact ⟨hs, (skipsToRest_skipValue hskip).trans (leavesRest_readColon hcolon)⟩
  · next field hfind =>
    split at h
    · cases h
    · obtain ⟨⟨_, cs₁⟩, hcolon, h⟩ := bind_eq_ok_iff.1 h
      obtain ⟨⟨result, cs₂⟩, hread, h⟩ := bind_eq_ok_iff.1 h
      obtain ⟨rfl, rfl⟩ := Prod.mk.inj (eq_of_settle h)
      have hcolonRest := leavesRest_readColon hcolon
      have hstep := hfields field (List.mem_of_find?_eq_some hfind) hs (hcolonRest.trans hcs) hread
      exact ⟨hstep.1, hstep.2.trans hcolonRest⟩

theorem leavesRest_readListEnd : LeavesRest readListEnd := by
  intro cs a rest h
  unfold readListEnd at h
  split at h
  · cases h
  next c cs' hspace =>
  split at h
  · cases h
    exact suffix_behind_skipSpace hspace
  split at h
  · split at h
    · cases h
    · split at h <;> cases h
  · cases h

theorem readElements_rest_invariant {expected : String} {spare : List String}
    {fields : List (RecordField σ)}
    {index : Nat} (hfields : ∀ field ∈ fields, field.Keeps text I) (hs : I s) (hcs : cs <:+ text)
    (h : readElements expected spare fields index s cs = .ok (s', rest)) : I s' ∧ rest <:+ cs := by
  induction fields generalizing index s cs with
  | nil =>
    obtain ⟨⟨_, cs'⟩, hend, h⟩ := bind_eq_ok_iff.1 h
    cases h
    exact ⟨hs, leavesRest_readListEnd hend⟩
  | cons field fields ih =>
    obtain ⟨hfield, hfields⟩ := List.forall_mem_cons.1 hfields
    have hnext : ∀ {cs'}, cs' <:+ cs → (do
        let next ← settle afterElement (← field.read s cs')
        readElements expected spare fields (index + 1) next.1 next.2) = .ok (s', rest) →
          I s' ∧ rest <:+ cs := by
      intro cs' hcs' h
      obtain ⟨⟨result, cs''⟩, hread, h⟩ := bind_eq_ok_iff.1 h
      obtain ⟨⟨t, cs₁⟩, hsettle, h⟩ := bind_eq_ok_iff.1 h
      obtain ⟨rfl, rfl⟩ := Prod.mk.inj (eq_of_settle hsettle)
      have hstep := hfield hs (hcs'.trans hcs) hread
      have hrun := ih hfields hstep.1 ((hstep.2.trans hcs').trans hcs) h
      exact ⟨hrun.1, (hrun.2.trans hstep.2).trans hcs'⟩
    rw [readElements] at h
    split at h
    · cases h
    next c cs' hspace =>
    split at h
    · dsimp only at h
      split at h <;> cases h
      exact ⟨hs, suffix_behind_skipSpace hspace⟩
    split at h
    · exact hnext (suffix_of_skipSpace hspace) h
    split at h
    · split at h
      · cases h
      next d cs'' hspace' =>
      split at h
      · cases h
      · exact hnext ((suffix_of_skipSpace hspace').trans (suffix_behind_skipSpace hspace)) h
    · cases h

theorem finish_eq_ok {shape : RecordShape σ α} {a : α} (h : shape.finish s cs = .ok (a, rest)) :
    shape.build s = .ok a ∧ rest = cs := by
  unfold RecordShape.finish at h
  split at h <;> cases h
  exact ⟨‹_›, rfl⟩

/-- A record is built from a state that keeps what reading each of its fields keeps. -/
theorem readRecord_rest_invariant {shape : RecordShape σ α} {a : α}
    (hfields : ∀ field ∈ shape.fields, field.Keeps text I) (hstart : I shape.start)
    (hcs : cs <:+ text)
    (h : readRecord shape fuel cs = .ok (a, rest)) : (∃ s, I s ∧ shape.build s = .ok a) ∧
    rest <:+ cs := by
  unfold readRecord at h
  split at h
  · cases h
  next c cs' hspace =>
  have hbehind : cs' <:+ cs := suffix_behind_skipSpace hspace
  split at h
  · obtain ⟨⟨s, cs''⟩, hmembers, h⟩ := bind_eq_ok_iff.1 h
    obtain ⟨hbuild, rfl⟩ := finish_eq_ok h
    have hrun := readMembers_rest_invariant
      (fun _ _ _ _ _ hs => readField_rest_invariant hfields hs) hstart
      (hbehind.trans hcs) hmembers
    exact ⟨⟨s, hrun.1, hbuild⟩, hrun.2.trans hbehind⟩
  split at h
  · obtain ⟨⟨s, cs''⟩, helements, h⟩ := bind_eq_ok_iff.1 h
    obtain ⟨hbuild, rfl⟩ := finish_eq_ok h
    have hrun := readElements_rest_invariant hfields hstart (hbehind.trans hcs) helements
    exact ⟨⟨s, hrun.1, hbuild⟩, hrun.2.trans hbehind⟩
  · exact absurd h (readShape_unexpected _ _)

end Records

end Calculator.Json
