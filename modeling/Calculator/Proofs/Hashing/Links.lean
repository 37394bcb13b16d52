import Calculator.Proofs.FileTree.Links
import Calculator.Proofs.FileTree.Permission
import Calculator.Proofs.Hashing.Containment
import Calculator.Proofs.Text.Trim

/-!
# Files when links are refused

Where links are refused, a path is accepted only if its last name is the name of the file itself,
whatever links lead to the directory of that file. A path that is too long to be tested for a link
is treated as if links were allowed, so a link does get accepted behind enough dots.
-/

namespace Calculator.HashSource

open FileTree FilePolicy

variable {settings : Settings} {tree : FileTree} {field raw path : String}

def followingLinks (settings : Settings) : Settings :=
  { settings with files := { settings.files with allowSymlinks := true } }

theorem ofPath_of_long (h : pathLimit ≤ byteLength path) :
    ofPath settings tree field path = ofPath (followingLinks settings) tree field path := by
  rw [ofPath, ofPath, permit_of_long h]
  rfl

theorem endsAt_of_ofPath {source : HashSource} (hpolicy : settings.files.allowSymlinks = false)
    (hshort : byteLength path < pathLimit) (h : ofPath settings tree field path = .ok source) :
    ∃ place content, tree.EndsAt path place ∧ tree.node? place = some (.file content) ∧
      source = .file place.path content.length := by
  obtain ⟨place, content, hplace, hopen, -, hsource⟩ := ofPath_eq_ok_iff.1 h
  obtain ⟨hallowed, hresolve, -⟩ := permit_eq_ok_iff.1 hplace
  have hfile := node?_of_open?_path (isCanonical_of_resolve hresolve) hopen
  have hlink : tree.isLink path = false := by
    rw [Bool.eq_false_iff]
    exact fun hlink => absurd (hallowed hlink) (by simp [hpolicy])
  exact ⟨place, content, endsAt_of_resolve hresolve hfile hlink hshort, hfile, hsource⟩

/-- A path that can be tested is accepted by the name of the file at its end only, and a longer one
as if links were allowed. -/
theorem ofInput_file_links (hpolicy : settings.files.allowSymlinks = false) :
    (byteLength (Text.trim raw) < pathLimit → ∀ source,
      ofInput settings tree field .file raw = .ok source →
      ∃ place content, tree.EndsAt (Text.trim raw) place ∧ tree.node? place = some (.file content) ∧
        source = .file place.path content.length) ∧
    (pathLimit ≤ byteLength (Text.trim raw) →
      ofInput settings tree field .file raw = ofInput (followingLinks settings)
        tree field .file raw) := by
  rw [ofInput_file, ofInput_file]
  exact ⟨fun hshort _ h => endsAt_of_ofPath hpolicy hshort h, ofPath_of_long⟩

def unlinkedSettings : Settings :=
  { Settings.default with files := ⟨none, false⟩ }

theorem ofInput_file_links_parent :
    unlinkedSettings.files.allowSymlinks = false ∧
    ofInput unlinkedSettings linkedTree "input_data" .file " alias/../report.txt " =
      .ok (.file "/srv/data/report.txt" 2) ∧
    ∃ place content, linkedTree.EndsAt "alias/../report.txt" place ∧
      linkedTree.node? place = some (.file content) ∧
      HashSource.file "/srv/data/report.txt" 2 = .file place.path content.length := by
  have htrim : Text.trim " alias/../report.txt " = "alias/../report.txt" := by decide +kernel
  have hpermit : unlinkedSettings.files.permit linkedTree "alias/../report.txt" =
      .ok ["srv", "data", "report.txt"] := by decide +kernel
  have hpath : Location.path ["srv", "data", "report.txt"] = "/srv/data/report.txt" := by
    decide +kernel
  have hopen : linkedTree.open? "/srv/data/report.txt" = .ok (.file [104, 105]) := by rfl
  have haccepted : ofInput unlinkedSettings linkedTree "input_data" .file " alias/../report.txt " =
      .ok (.file "/srv/data/report.txt" 2) := by
    rw [ofInput_file, htrim, ofPath_eq_ok_iff]
    exact ⟨_, [104, 105], hpermit, by rw [hpath, hopen], by decide, by rw [hpath]; rfl⟩
  have hshort : byteLength (Text.trim " alias/../report.txt ") < pathLimit := by
    rw [htrim]
    decide
  have hends := (ofInput_file_links rfl).1 hshort _ haccepted
  rw [htrim] at hends
  exact ⟨rfl, haccepted, hends⟩

theorem trim_dotted (h : Text.trim path = path) (hsome : path ≠ "") (n : Nat) :
    Text.trim (dotted n path) = dotted n path := by
  have htrimmed := Text.isTrimmed_trimChars path.toList
  rw [← String.toList_ofList (l := Text.trimChars path.toList), ← Text.trim, h] at htrimmed
  have hdotted : Text.IsTrimmed (dotted n path).toList := by
    refine ⟨?_, by rw [getLast?_dotted hsome]; exact htrimmed.last⟩
    cases n with
    | zero =>
      rw [dotted_zero]
      exact htrimmed.head
    | succ n =>
      rw [toList_dotted_succ]
      rintro c ⟨⟩
      decide
  rw [Text.trim, Text.trimChars_of_isTrimmed hdotted, String.ofList_toList]

/-- Behind enough dots a link is accepted, though the file it leads to has another name. -/
theorem ofInput_file_links_dotted :
    unlinkedSettings.files.allowSymlinks = false ∧
    ofInput unlinkedSettings aliasTree "input_data" .file (dotted 2048 "alias") =
      .ok (.file "/pub/report.txt" 2) ∧
    ¬∃ place content, aliasTree.EndsAt (Text.trim (dotted 2048 "alias")) place ∧
      aliasTree.node? place = some (.file content) ∧
      HashSource.file "/pub/report.txt" 2 = .file place.path content.length := by
  have htrim : Text.trim (dotted 2048 "alias") = dotted 2048 "alias" :=
    trim_dotted (by decide +kernel) (by decide) 2048
  have hpermit : unlinkedSettings.files.permit aliasTree (dotted 2048 "alias") =
      .ok ["pub", "report.txt"] := by
    rw [permit_dotted_eq_ok_iff (by decide) (by decide) (by decide)]
    decide +kernel
  have hpath : Location.path ["pub", "report.txt"] = "/pub/report.txt" := by decide +kernel
  have hopen : aliasTree.open? "/pub/report.txt" = .ok (.file [104, 105]) := by rfl
  refine ⟨rfl, ?_, ?_⟩
  · rw [ofInput_file, htrim, ofPath_eq_ok_iff]
    exact ⟨_, [104, 105], hpermit, by rw [hpath, hopen], by decide, by rw [hpath]; rfl⟩
  · rintro ⟨place, content, hends, -, hsource⟩
    obtain ⟨hplace, -⟩ : "/pub/report.txt" = place.path ∧ 2 = content.length := by
      simpa using hsource
    have hlast := hends.getLast?_path
    rw [htrim, ← hplace, getLast?_dotted (by decide)] at hlast
    exact absurd hlast (by decide)

end Calculator.HashSource
