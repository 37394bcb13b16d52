import Calculator.Proofs.Json.Agreement
import Calculator.Proofs.Json.RecordRest

/-!
# Where the fields of a record stand

A record can be read with a note of where the value of each field begins: behind the colon of its
member, or in its turn among the elements. The notes change nothing about what is read.
-/

namespace Calculator.Json

variable {α σ : Type} {fuel : Nat} {cs rest : List Char}

abbrev Places := List (String × List Char)

def RecordField.noted (field : RecordField σ) : RecordField (σ × Places) :=
  ⟨field.name, fun s => field.isRead s.1, fun s cs => do
    let (result, rest) ← field.read s.1 cs
    return (result.map fun s' => (s', (field.name, cs) :: s.2), rest)⟩

def RecordShape.noted (shape : RecordShape σ α) : RecordShape (σ × Places) (α × Places) where
  name := shape.name
  fields := shape.fields.map RecordField.noted
  spare := shape.spare
  start := (shape.start, [])
  build := fun s => do return (← shape.build s.1, s.2)

section Notes

variable {field : RecordField σ} {fields : List (RecordField σ)} {s s' : σ} {places : Places}

theorem noted_read (h : field.read s cs = .ok (.ok s', rest)) (places : Places) :
    field.noted.read (s, places) cs = .ok (.ok (s', (field.name, cs) :: places), rest) := by
  simp only [RecordField.noted, h, bind, Except.bind, pure, Except.pure, Except.map]

theorem readField_noted {key : String} (h : readField fields s key cs = .ok (s', rest))
    (places : Places) :
    ∃ places', readField (fields.map RecordField.noted) (s, places) key cs =
      .ok ((s', places'), rest) := by
  unfold readField at h ⊢
  have hfind : (fields.map RecordField.noted).find? (·.name == key) =
      (fields.find? (·.name == key)).map RecordField.noted := List.find?_map
  rw [hfind]
  cases hfield : fields.find? (·.name == key) with
  | none =>
    simp only [hfield] at h
    obtain ⟨⟨_, cs₁⟩, hcolon, h⟩ := bind_eq_ok_iff.1 h
    obtain ⟨cs₂, hskip, h⟩ := bind_eq_ok_iff.1 h
    cases h
    exact ⟨places, bind_eq_ok_iff.2 ⟨_, hcolon, bind_eq_ok_iff.2 ⟨_, hskip, rfl⟩⟩⟩
  | some field =>
    simp only [hfield] at h
    split at h
    · cases h
    next hfresh =>
    obtain ⟨⟨_, cs₁⟩, hcolon, h⟩ := bind_eq_ok_iff.1 h
    obtain ⟨⟨result, cs₂⟩, hread, h⟩ := bind_eq_ok_iff.1 h
    obtain ⟨rfl, rfl⟩ := Prod.mk.inj (eq_of_settle h)
    refine ⟨(field.name, cs₁) :: places, ?_⟩
    rw [Option.map_some]
    refine (if_neg hfresh).trans ?_
    exact bind_eq_ok_iff.2 ⟨_, hcolon, bind_eq_ok_iff.2 ⟨_, noted_read hread places, rfl⟩⟩

theorem readElements_noted {expected : String} {spare : List String} {index : Nat}
    (h : readElements expected spare fields index s cs = .ok (s', rest)) (places : Places) :
    ∃ places', readElements expected spare (fields.map RecordField.noted) index (s, places) cs =
      .ok ((s', places'), rest) := by
  induction fields generalizing index s cs places with
  | nil =>
    obtain ⟨⟨_, cs'⟩, hend, h⟩ := bind_eq_ok_iff.1 h
    cases h
    exact ⟨places, bind_eq_ok_iff.2 ⟨_, hend, rfl⟩⟩
  | cons field fields ih =>
    have hnext : ∀ {cs'}, (do
        let next ← settle afterElement (← field.read s cs')
        readElements expected spare fields (index + 1) next.1 next.2) = .ok (s', rest) →
        ∃ places', (do
          let next ← settle afterElement (← field.noted.read (s, places) cs')
          readElements expected spare (fields.map RecordField.noted) (index + 1) next.1 next.2) =
            .ok ((s', places'), rest) := by
      intro cs' h
      obtain ⟨⟨result, cs''⟩, hread, h⟩ := bind_eq_ok_iff.1 h
      obtain ⟨⟨t, cs₁⟩, hsettle, h⟩ := bind_eq_ok_iff.1 h
      obtain ⟨rfl, rfl⟩ := Prod.mk.inj (eq_of_settle hsettle)
      obtain ⟨places', hrun⟩ := ih h ((field.name, cs') :: places)
      exact ⟨places', bind_eq_ok_iff.2 ⟨_, noted_read hread places,
        bind_eq_ok_iff.2 ⟨_, rfl, hrun⟩⟩⟩
    have hspares : ((field :: fields).map RecordField.noted).takeWhile (spare.contains ·.name) =
        ((field :: fields).takeWhile (spare.contains ·.name)).map RecordField.noted :=
          List.takeWhile_map ..
    rw [List.map_cons] at hspares ⊢
    rw [readElements] at h ⊢
    split at h
    · cases h
    simp only [hspares, List.length_map]
    split at h
    · next hclose =>
      dsimp only at h
      split at h <;> cases h
      exact ⟨places, by rw [if_pos hclose, if_pos ‹_›]⟩
    next hclose =>
    rw [if_neg hclose]
    split at h
    · next hfirst =>
      rw [if_pos hfirst]
      exact hnext h
    next hfirst =>
    rw [if_neg hfirst]
    split at h
    · next hcomma =>
      rw [if_pos hcomma]
      split at h
      · cases h
      next hspace' =>
      split at h
      · cases h
      next hclose' =>
      rw [if_neg hclose']
      exact hnext h
    · cases h

theorem readRecord_noted {shape : RecordShape σ α} {a : α}
    (h : readRecord shape fuel cs = .ok (a, rest)) :
    ∃ places, readRecord shape.noted fuel cs = .ok ((a, places), rest) := by
  have hfinish : ∀ {s : σ} {cs : List Char} (places : Places), shape.finish s cs = .ok (a, rest) →
      shape.noted.finish (s, places) cs = .ok ((a, places), rest) := by
    intro s cs places h
    obtain ⟨hbuild, rfl⟩ := finish_eq_ok h
    simp only [RecordShape.finish, RecordShape.noted, hbuild, bind, Except.bind, pure, Except.pure]
  unfold readRecord at h ⊢
  split at h
  · cases h
  split at h
  · next hbrace =>
    obtain ⟨⟨s, cs''⟩, hmembers, h⟩ := bind_eq_ok_iff.1 h
    obtain ⟨⟨_, places⟩, hnoted, rfl⟩ := readMembers_simulation (R := fun s t => s = t.1)
      (fun s t key cs s' rest hst hmember => by
        obtain ⟨places', hfield⟩ := readField_noted hmember t.2
        exact ⟨(s', places'), hst ▸ hfield, rfl⟩) (t := shape.noted.start) rfl hmembers
    refine ⟨places, ?_⟩
    rw [if_pos hbrace]
    exact bind_eq_ok_iff.2 ⟨_, hnoted, hfinish places h⟩
  next hbrace =>
  rw [if_neg hbrace]
  split at h
  · next hbracket =>
    obtain ⟨⟨s, cs''⟩, helements, h⟩ := bind_eq_ok_iff.1 h
    obtain ⟨places, hnoted⟩ := readElements_noted helements []
    refine ⟨places, ?_⟩
    rw [if_pos hbracket]
    have hlength : shape.noted.fields.length = shape.fields.length := List.length_map ..
    simp only [hlength]
    exact bind_eq_ok_iff.2 ⟨_, hnoted, hfinish places h⟩
  · exact absurd h (readShape_unexpected _ _)

end Notes

end Calculator.Json
