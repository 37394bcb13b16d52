import Calculator.Hashing.Source
import Calculator.Proofs.FileTree.Resolution
import Mathlib.Control.Monad.Basic

/-!
# Files stay within the root directory

A file that is admitted for hashing lies at a canonical place below the root directory, however its
path is spelled and whatever links the spelling goes through, and what is hashed later is the
content of that very file.
-/

namespace Calculator.HashSource

open FileTree

variable {settings : Settings} {tree : FileTree} {field raw root path : String} {size : Nat}

theorem ofInput_file (settings : Settings) (tree : FileTree) (field raw : String) :
    ofInput settings tree field .file raw = ofPath settings tree field (Text.trim raw) := rfl

theorem ofPath_eq_ok_iff {source : HashSource} :
    ofPath settings tree field path = .ok source ↔
      ∃ place content, settings.files.permit tree path = .ok place ∧
        tree.open? place.path = .ok (.file content) ∧
        content.length ≤ settings.limits.maxFileSize.toNat ∧
        source = .file place.path content.length := by
  unfold ofPath
  cases hplace : settings.files.permit tree path with
  | error refusal => simp
  | ok place =>
    cases hnode : tree.open? place.path with
    | error fault => simp [hnode]
    | ok node =>
      cases node with
      | directory entries => simp [hnode]
      | link target => simp [hnode]
      | file content =>
        simp only [Except.ok.injEq, Node.file.injEq, hnode, exists_and_left, exists_eq_left',
          ← Nat.not_lt]
        split
        · next hlarge => simp [hlarge]
        · next hsmall => simp [hsmall, eq_comm]

theorem read_file {content : Bytes} (h : tree.open? path = .ok (.file content)) (size : Nat) :
    (HashSource.file path size).read tree = .ok content := by
  simp [HashSource.read, FileTree.read, h, bind, Except.bind]

/-- Every spelling that is accepted names a regular file below the root directory by its canonical
path. -/
theorem ofInput_file_within_root (hroot : settings.files.rootPath = some root)
    (h : ofInput settings tree field .file raw = .ok (.file path size)) :
    ∃ outer below content,
      tree.resolve root = .ok outer ∧ path = (outer ++ below : Location).path ∧
      (∀ name ∈ outer ++ below, IsPlainName name) ∧
      (∀ here, here <+: outer ++ below → ∀ target, tree.node? here ≠ some (.link target)) ∧
      tree.node? (outer ++ below) = some (.file content) ∧
      tree.open? path = .ok (.file content) ∧
      size = content.length ∧ size ≤ settings.limits.maxFileSize.toNat ∧
      (HashSource.file path size).read tree = .ok content := by
  obtain ⟨place, content, hplace, hopen, hsmall, hsource⟩ := ofPath_eq_ok_iff.1 h
  obtain ⟨rfl, rfl⟩ : path = place.path ∧ size = content.length := by simpa using hsource
  obtain ⟨-, hresolve, hroots⟩ := FilePolicy.permit_eq_ok_iff.1 hplace
  have hcanonical := isCanonical_of_resolve hresolve
  obtain ⟨outer, houter, below, rfl⟩ := hroots root hroot
  exact ⟨outer, below, content, houter, rfl, hcanonical.plain,
    fun _ => hcanonical.not_link_of_prefix,
    node?_of_open?_path hcanonical hopen, hopen, rfl, hsmall, read_file hopen _⟩

def linkedTree : FileTree where
  root := .directory [("srv", .directory [
    ("data", .directory [("sub", .directory []), ("report.txt", .file [104, 105])]),
    ("data2", .directory [("report.txt", .file [120])]),
    ("alias", .link "./data/sub")])]
  current := ["srv"]

def linkedSettings : Settings :=
  { Settings.default with files := ⟨some "data2/../alias/..", true⟩ }

theorem ofInput_linkedTree :
    ofInput linkedSettings linkedTree "input_data" .file " alias/../report.txt " =
      .ok (.file "/srv/data/report.txt" 2) := by
  have htrim : Text.trim " alias/../report.txt " = "alias/../report.txt" := by decide +kernel
  have hpermit : linkedSettings.files.permit linkedTree "alias/../report.txt" =
      .ok ["srv", "data", "report.txt"] := by decide +kernel
  have hpath : Location.path ["srv", "data", "report.txt"] = "/srv/data/report.txt" := by
    decide +kernel
  have hopen : linkedTree.open? "/srv/data/report.txt" = .ok (.file [104, 105]) := by rfl
  rw [ofInput_file, htrim, ofPath_eq_ok_iff]
  exact ⟨_, [104, 105], hpermit, by rw [hpath, hopen], by decide, by rw [hpath]; rfl⟩

theorem ofInput_file_within_root_of_link :
    linkedSettings.files.rootPath = some "data2/../alias/.." ∧
    ofInput linkedSettings linkedTree "input_data" .file " alias/../report.txt " =
      .ok (.file "/srv/data/report.txt" 2) ∧
    ∃ outer below content, linkedTree.resolve "data2/../alias/.." = .ok outer ∧
      "/srv/data/report.txt" = (outer ++ below : Location).path ∧
      (HashSource.file "/srv/data/report.txt" 2).read linkedTree = .ok content := by
  have hroot : linkedSettings.files.rootPath = some "data2/../alias/.." := rfl
  have hwithin := ofInput_file_within_root hroot ofInput_linkedTree
  obtain ⟨outer, below, content, houter, hpath, hplaces⟩ := hwithin
  exact ⟨hroot, ofInput_linkedTree, outer, below, content, houter, hpath, hplaces.2.2.2.2.2.2⟩

end Calculator.HashSource
