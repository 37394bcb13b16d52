import Calculator.Proofs.FileTree.Resolution
import Calculator.Proofs.Text.Lines
import Calculator.Proofs.Text.Utf8

/-!
# Where links are refused

A path whose last name is not that of a link, and that leads to a file, ends in the name of that
file: links can only have been followed to the directory that holds it. Whether a path names a link
is not seen for one that is too long, and every relative path can be made as long as that.
-/

namespace Calculator

namespace FileTree

/-- A path and the place that has the last name of the path in the directory that the rest leads
to. -/
inductive EndsAt (tree : FileTree) : String → Location → Prop
  | current {name : String} (hname : IsPlainName name) : EndsAt tree name (tree.current ++ [name])
  | below {parent name : String} {dir : Location} (hname : IsPlainName name)
    (hparent : tree.resolve (parent ++ "/") = .ok dir) :
      EndsAt tree (parent ++ "/" ++ name) (dir ++ [name])

variable {tree : FileTree} {place here : Location} {path parent name : String}
  {front pending : List String} {content : Bytes} {n m links : Nat}

theorem EndsAt.exists_name (h : tree.EndsAt path place) :
    ∃ dir name, IsPlainName name ∧ place = dir ++ [name] ∧ name.toList <:+ path.toList := by
  cases h with
  | current hname => exact ⟨tree.current, path, hname, rfl, List.suffix_refl _⟩
  | @below parent name dir hname =>
    refine ⟨dir, name, hname, rfl, ?_⟩
    rw [String.toList_append]
    exact List.suffix_append _ _

theorem EndsAt.getLast?_path (h : tree.EndsAt path place) :
    place.path.toList.getLast? = path.toList.getLast? := by
  obtain ⟨dir, name, hname, rfl, front, hpath⟩ := h.exists_name
  have hne : name.toList ≠ [] := fun hnil => hname.1 (String.toList_eq_nil_iff.1 hnil)
  rw [toList_path_of_ne_nil (List.concat_ne_nil name dir), List.flatMap_append,
    List.flatMap_singleton, ← hpath,
    List.getLast?_append_of_ne_nil _ hne, List.append_cons, List.getLast?_append_of_ne_nil _ hne]

theorem names_of_notMem (h : '/' ∉ path.toList) : names path = [path] := by
  rw [names, Text.split_of_notMem h, List.map_singleton, String.ofList_toList]

theorem toList_append_slash (parent name : String) :
    (parent ++ "/" ++ name).toList = parent.toList ++ '/' :: name.toList := by
  simp

theorem names_append_slash (parent : String) (h : '/' ∉ name.toList) :
    names (parent ++ "/" ++ name) = names parent ++ [name] := by
  rw [names, toList_append_slash, Text.split_append, List.map_append,
    ← names, ← names, names_of_notMem h]

theorem isAbsolute_append_slash (parent name : String) :
    isAbsolute (parent ++ "/" ++ name) = isAbsolute (parent ++ "/") := by
  rw [isAbsolute, isAbsolute, toList_append_slash, String.toList_append]
  cases parent.toList with
  | nil => rfl
  | cons c rest => rfl

theorem exists_last_name (path : String) :
    '/' ∉ path.toList ∨ ∃ parent name, path = parent ++ "/" ++ name ∧ '/' ∉ name.toList := by
  by_cases hslash : '/' ∈ path.toList
  · obtain ⟨behind, before, hpath, hbehind⟩ :=
      List.eq_append_cons_of_mem (List.mem_reverse.2 hslash)
    refine .inr ⟨String.ofList before.reverse, String.ofList behind.reverse,
      String.toList_inj.1 ?_, by simpa⟩
    rw [toList_append_slash, String.toList_ofList, String.toList_ofList,
      List.reverse_eq_iff.1 hpath]
    simp
  · exact .inl hslash

theorem Leads.enters_last (h : tree.Leads n here (front ++ [name]) place) (hlinks : n ≤ links)
    (hfile : tree.node? place = some (.file content))
    (hlast : ∀ found target, tree.walk false links here (front ++ [name]) = .ok found →
      tree.node? found ≠ some (.link target)) :
    ∃ dir, tree.Leads n here front dir ∧ tree.HasEntry dir name (.file content) ∧
    place = dir ++ [name] := by
  obtain ⟨dir, m, k, hfront, hname, rfl⟩ := h.split
  -- A file is no directory, so the last name neither stays nor goes up.
  have hnodir : ¬tree.IsDirectory place := by
    rintro ⟨entries, hdir⟩
    exact absurd (hdir.symm.trans hfile) (by simp)
  cases hname with
  | stay hdir _ hrest =>
    cases hrest
    exact absurd hdir hnodir
  | up hdir hrest =>
    cases hrest
    exact absurd hdir.dropLast hnodir
  | enter hentry _ hrest =>
    cases hrest
    obtain rfl := Option.some.inj (hentry.node.symm.trans hfile)
    rw [Nat.zero_add]
    exact ⟨dir, hfront, hentry, rfl⟩
  | @follow k _ _ _ target _ hentry _ =>
    have hwalk : tree.walk false (links - m + m) here (front ++ [name]) =
        tree.walk false (links - m) dir [name] :=
          walk_append hfront (.inr (.inl (List.cons_ne_nil _ _)))
    obtain ⟨follow, hstep⟩ := tree.walk_eq_walkWith false (links - m)
    rw [Nat.sub_add_cancel (Nat.le_trans (Nat.le_add_left m (k + 1)) hlinks),
      hstep, walkWith_follow hentry, if_pos ⟨rfl, rfl⟩] at hwalk
    exact absurd hentry.node (hlast _ target hwalk)

theorem not_link_of_isLink_eq_false (hlink : tree.isLink path = false)
    (hshort : byteLength path < pathLimit)
    (hnul : '\x00' ∉ path.toList) (hsome : path ≠ "") {found : Location} {target : String}
    (h : tree.walk false linkLimit (if isAbsolute path then [] else tree.current)
      (names path) = .ok found) :
    tree.node? found ≠ some (.link target) := by
  intro hnode
  have hfound : tree.resolveWith false path = .ok found := by
    rw [resolveWith, if_neg (by rwa [List.contains_iff_mem]), if_neg hsome, h]
  rw [isLink_eq_true_iff.2 ⟨hshort, found, target, hfound, hnode⟩] at hlink
  cases hlink

/-- A path that names no link and leads to a file has the name of the file at its end. -/
theorem endsAt_of_resolve (h : tree.resolve path = .ok place)
    (hfile : tree.node? place = some (.file content))
    (hlink : tree.isLink path = false) (hshort : byteLength path < pathLimit) :
      tree.EndsAt path place := by
  obtain ⟨hnul, hsome, n, hn, hleads⟩ := resolve_eq_ok_iff.1 h
  have hlast : ∀ found target,
      tree.walk false linkLimit (if isAbsolute path then [] else tree.current)
        (names path) = .ok found →
        tree.node? found ≠ some (.link target) :=
    fun _ _ => not_link_of_isLink_eq_false hlink hshort hnul hsome
  rcases exists_last_name path with hslash | ⟨parent, name, rfl, hslash⟩
  · have hrelative : isAbsolute path = false := by
      rw [isAbsolute, beq_eq_false_iff_ne]
      exact fun hhead => hslash (List.mem_of_mem_head? hhead)
    rw [names_of_notMem hslash, hrelative, if_neg Bool.false_ne_true, ← List.nil_append [path]]
      at hleads hlast
    obtain ⟨dir, hdir, hentry, rfl⟩ := hleads.enters_last hn hfile hlast
    cases hdir
    exact .current (hentry.isPlainName hslash)
  · rw [names_append_slash parent hslash] at hleads hlast
    obtain ⟨dir, hdir, hentry, rfl⟩ := hleads.enters_last hn hfile hlast
    refine .below (hentry.isPlainName hslash)
      (resolve_eq_ok_iff.2 ⟨fun hmem => hnul ?_, by simp, n, hn, ?_⟩)
    · rw [String.toList_append]
      exact List.mem_append_left _ hmem
    · have hnames : names (parent ++ "/") = names parent ++ [""] := by
        have hempty : '/' ∉ ("" : String).toList := List.not_mem_nil
        rw [← names_append_slash parent hempty, String.append_empty]
      rw [hnames, ← isAbsolute_append_slash parent name, ← Nat.zero_add n]
      exact hdir.append (.stay hentry.isDirectory (.inl rfl) (.done dir))

def dotted (n : Nat) (path : String) : String :=
  String.ofList ((List.replicate n ['.', '/']).flatten ++ path.toList)

theorem toList_dotted_succ (n : Nat) (path : String) :
    (dotted (n + 1) path).toList = '.' :: '/' :: (dotted n path).toList := by
  simp [dotted, List.replicate_succ]

theorem dotted_zero (path : String) : dotted 0 path = path := by
  simp [dotted]

theorem getLast?_dotted (h : path ≠ "") (n : Nat) :
    (dotted n path).toList.getLast? = path.toList.getLast? := by
  have hne : path.toList ≠ [] := fun hnil => h (String.toList_eq_nil_iff.1 hnil)
  rw [dotted, String.toList_ofList, List.getLast?_append_of_ne_nil _ hne]

theorem le_byteLength_dotted (n : Nat) (path : String) : 2 * n ≤ byteLength (dotted n path) := by
  induction n with
  | zero => exact Nat.zero_le _
  | succ n ih =>
    have hdot : ('.' : Char).utf8Size = 1 := rfl
    have hslash : ('/' : Char).utf8Size = 1 := rfl
    rw [byteLength] at ih
    rw [byteLength, toList_dotted_succ, Text.byteCount_cons, Text.byteCount_cons, hdot, hslash]
    omega

theorem names_dotted_succ (n : Nat) (path : String) :
    names (dotted (n + 1) path) = "." :: names (dotted n path) := by
  have hsplit : Text.split '/' (['.'] ++ '/' :: (dotted n path).toList) =
      ['.'] :: Text.split '/' (dotted n path).toList := Text.split_append_separator (by decide) _
  rw [names, toList_dotted_succ, ← List.singleton_append, hsplit]
  rfl

theorem isAbsolute_dotted (h : isAbsolute path = false) (n : Nat) :
    isAbsolute (dotted n path) = false := by
  cases n with
  | zero => rwa [dotted_zero]
  | succ n =>
    rw [isAbsolute, toList_dotted_succ]
    rfl

theorem dotted_ne_empty (h : path ≠ "") (n : Nat) : dotted n path ≠ "" := by
  cases n with
  | zero => rwa [dotted_zero]
  | succ n =>
    rw [← String.toList_inj.ne, toList_dotted_succ]
    exact List.cons_ne_nil _ _

theorem mem_toList_dotted {c : Char} (hdot : c ≠ '.') (hslash : c ≠ '/') (n : Nat) (path : String) :
    c ∈ (dotted n path).toList ↔ c ∈ path.toList := by
  induction n with
  | zero => rw [dotted_zero]
  | succ n ih => rw [toList_dotted_succ, List.mem_cons, List.mem_cons,
      ih, or_iff_right hdot, or_iff_right hslash]

theorem Leads.isDirectory (h : tree.Leads n here pending place)
    (hne : pending ≠ []) : tree.IsDirectory here := by
  cases h with
  | done => exact absurd rfl hne
  | stay hdir => exact hdir
  | up hdir => exact hdir
  | enter hentry => exact hentry.isDirectory
  | follow hentry => exact hentry.isDirectory

theorem leads_dotted_iff :
    tree.Leads m here (names (dotted n path)) place ↔ tree.Leads m here (names path) place := by
  induction n with
  | zero => rw [dotted_zero]
  | succ n ih =>
    rw [names_dotted_succ, ← ih]
    constructor
    · exact fun h => h.of_stay (.inr rfl)
    · exact fun h => .stay (h.isDirectory (names_ne_nil _)) (.inr rfl) h

theorem resolve_dotted_eq_ok_iff (hrelative : isAbsolute path = false) (hsome : path ≠ "") :
    tree.resolve (dotted n path) = .ok place ↔ tree.resolve path = .ok place := by
  simp only [resolve_eq_ok_iff, isAbsolute_dotted hrelative, hrelative,
    leads_dotted_iff, ne_eq, hsome,
    dotted_ne_empty hsome, mem_toList_dotted (c := '\x00') (by decide) (by decide)]

end FileTree

namespace FilePolicy

open FileTree

variable {policy : FilePolicy} {tree : FileTree} {place : Location} {path : String} {n : Nat}

/-- A path that is too long to be tested is permitted as if links were allowed. -/
theorem permit_of_long (h : pathLimit ≤ byteLength path) :
    policy.permit tree path = permit { policy with allowSymlinks := true } tree path := by
  have hlink : tree.isLink path = false := by
    rw [isLink, if_pos h]
  simp [permit, hlink]

/-- Enough dots in front of a relative path let a link pass that is refused without them. -/
theorem permit_dotted_eq_ok_iff (hlong : pathLimit ≤ 2 * n) (hrelative : isAbsolute path = false)
    (hsome : path ≠ "") :
    policy.permit tree (dotted n path) = .ok place ↔
      permit { policy with allowSymlinks := true } tree path = .ok place := by
  rw [permit_of_long (Nat.le_trans hlong (le_byteLength_dotted n path)),
    permit_eq_ok_iff, permit_eq_ok_iff, resolve_dotted_eq_ok_iff hrelative hsome]
  simp

end FilePolicy

end Calculator
