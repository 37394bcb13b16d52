import Calculator.Proofs.FileTree.Opening
import Mathlib.Control.Monad.Basic

/-!
# Permitted paths are permitted again

The place that a permitted path leads to is permitted under its own path, whether links are allowed
or not: nothing on the way to it is a link any more. Two spellings end up as one path exactly when
they lead to the same place.

The path of a place may be too long to be followed. A place is only entered under a path that is
not, so this is the case for nothing but the current directory and those above it, which dots lead
to without a name.
-/

namespace Calculator

namespace Node

mutual

def entryNames : Node → List String
  | .directory entries => entryNamesOf entries
  | _ => []

def entryNamesOf : List (String × Node) → List String
  | [] => []
  | (name, node) :: rest => name :: (entryNames node ++ entryNamesOf rest)

end

variable {node child : Node} {name : String} {place : Location}

theorem mem_entryNamesOf_of_child? {entries : List (String × Node)}
    (h : (Node.directory entries).child? name = some child) :
    name ∈ entryNamesOf entries ∧ ∀ inner ∈ child.entryNames, inner ∈ entryNamesOf entries := by
  induction entries with
  | nil => cases h
  | cons entry rest ih =>
    obtain ⟨first, node⟩ := entry
    simp only [child?, List.find?_cons] at h
    simp only [entryNamesOf, List.mem_cons, List.mem_append]
    split at h
    · next hname =>
      cases h
      exact ⟨.inl (beq_iff_eq.1 hname).symm, fun inner hinner => .inr (.inl hinner)⟩
    · obtain ⟨hname, hinner⟩ := ih h
      exact ⟨.inr (.inr hname), fun inner h => .inr (.inr (hinner inner h))⟩

theorem mem_entryNames_of_at? (h : node.at? place = some child) :
    ∀ name ∈ place, name ∈ node.entryNames := by
  induction place generalizing node with
  | nil => exact nofun
  | cons first rest ih =>
    obtain ⟨next, hnext, hrest⟩ := Option.bind_eq_some_iff.1 h
    obtain ⟨entries, rfl⟩ := eq_directory_of_child? hnext
    obtain ⟨hfirst, hinner⟩ := mem_entryNamesOf_of_child? hnext
    rw [List.forall_mem_cons, entryNames]
    exact ⟨hfirst, fun name hname => hinner name (ih hrest name hname)⟩

end Node

namespace FileTree

/-- Entries have names as a system gives them. -/
def HasEntryNames (tree : FileTree) : Prop :=
  ∀ name ∈ tree.root.entryNames, IsEntryName name

instance (tree : FileTree) : Decidable tree.HasEntryNames :=
  inferInstanceAs (Decidable (∀ name ∈ _, _))

variable {tree : FileTree} {place here : Location} {path : String} {pending : List String}
  {name : String} {n : Nat}

/-- Every place but those on the way up is entered under a path that is not too long. -/
theorem Leads.short_or_within (h : tree.Leads n here pending place) :
    byteLength place.path < pathLimit ∨ place <+: here := by
  have hroot : byteLength (Location.path []) < pathLimit := by decide
  induction h with
  | done here => exact .inr (List.prefix_refl here)
  | stay _ _ _ ih => exact ih
  | up _ _ ih => exact ih.imp_right fun hup => hup.trans (List.dropLast_prefix _)
  | @enter _ here place name _ _ hentry _ _ ih =>
    refine .inl (ih.elim id fun hbelow => ?_)
    obtain ⟨rest, hrest⟩ := hbelow
    by_cases hne : place = []
    · exact hne ▸ hroot
    · have hle := byteLength_path_append_le hne rest
      rw [hrest] at hle
      exact Nat.lt_of_le_of_lt hle (Nat.not_le.1 (not_or.1 hentry.short).2)
  | @follow _ here place _ target _ _ _ ih =>
    rcases ih with hshort | hstart
    · exact .inl hshort
    · split at hstart
      · exact .inl (List.prefix_nil.1 hstart ▸ hroot)
      · exact .inr hstart

theorem prefix_current_of_long (h : tree.resolve path = .ok place)
    (hlong : pathLimit ≤ byteLength place.path) :
    isAbsolute path = false ∧ place <+: tree.current := by
  obtain ⟨-, -, n, -, hleads⟩ := resolve_eq_ok_iff.1 h
  have hstart := hleads.short_or_within.resolve_left (Nat.not_lt.2 hlong)
  cases habsolute : isAbsolute path with
  | false =>
    rw [habsolute, if_neg Bool.false_ne_true] at hstart
    exact ⟨rfl, hstart⟩
  | true =>
    rw [habsolute, if_pos rfl, List.prefix_nil] at hstart
    exact absurd (hstart ▸ hlong) (by decide)

theorem isEntryName_of_node? {node : Node} (htree : tree.HasEntryNames)
    (h : tree.node? place = some node) :
    ∀ name ∈ place, IsEntryName name :=
  fun name hname => htree name (Node.mem_entryNames_of_at? h name hname)

theorem isDirectory_root_of_resolve (h : tree.resolve path = .ok place) : tree.IsDirectory [] := by
  obtain ⟨-, -, n, -, hleads⟩ := resolve_eq_ok_iff.1 h
  rcases hleads.arrives (names_ne_nil path) with ⟨entries, hdir⟩ | ⟨dir, name, node, hentry, -, rfl⟩
  · by_cases hne : place = []
    · exact ⟨entries, hne ▸ hdir⟩
    · exact isDirectory_root hne hdir
  · exact isDirectory_root (List.concat_ne_nil name dir) hentry.node

theorem resolveWith_path_of_resolve (htree : tree.HasEntryNames) (h : tree.resolve path = .ok place)
    (hshort : byteLength place.path < pathLimit) (followLast : Bool) :
    tree.resolveWith followLast place.path = .ok place := by
  have hcanonical := isCanonical_of_resolve h
  obtain ⟨node, hnode⟩ := hcanonical.holds
  exact resolveWith_path hcanonical (isDirectory_root_of_resolve h)
    (isEntryName_of_node? htree hnode) hshort
    followLast

theorem isLink_path_of_resolve (htree : tree.HasEntryNames) (h : tree.resolve path = .ok place) :
    tree.isLink place.path = false := by
  rw [Bool.eq_false_iff]
  intro hlink
  obtain ⟨hshort, found, target, hfound, hnode⟩ := isLink_eq_true_iff.1 hlink
  rw [resolveWith_path_of_resolve htree h hshort] at hfound
  cases hfound
  exact (isCanonical_of_resolve h).not_link target hnode

theorem walkWith_tooLong {follow : Location → List String → Except FileFault Location}
    {rest : List String} (hdir : tree.IsDirectory here) (hplain : IsPlainName name)
    (hlong : pathLimit ≤ byteLength (here ++ [name] : Location).path) :
    tree.walkWith true follow here (name :: rest) = .error .nameTooLong := by
  obtain ⟨entries, hdir⟩ := hdir
  obtain ⟨hempty, hdot, hup, -⟩ := hplain
  rw [walkWith, hdir]
  simp [hempty, hdot, hup, hlong]

theorem walkWith_of_long {follow : Location → List String → Except FileFault Location}
    (hcanonical : tree.IsCanonical (here ++ pending))
    (hnames : ∀ name ∈ pending, byteLength name ≤ nameLimit)
    (hhere : byteLength here.path < pathLimit)
    (hlong : pathLimit ≤ byteLength (here ++ pending : Location).path) :
    tree.walkWith true follow here pending = .error .nameTooLong := by
  induction pending generalizing here with
  | nil =>
    rw [List.append_nil] at hlong
    exact absurd hhere (Nat.not_lt.2 hlong)
  | cons name rest ih =>
    obtain ⟨hname, hrest⟩ := List.forall_mem_cons.1 hnames
    have hplain := hcanonical.plain name (by simp)
    obtain ⟨node, hnode⟩ := hcanonical.holds
    have hdir : tree.IsDirectory here := eq_directory_of_node?_append hnode
    rcases Nat.lt_or_ge (byteLength (here ++ [name] : Location).path) pathLimit with hnext | hnext
    · rw [List.append_cons] at hcanonical hlong
      obtain ⟨child, hchild⟩ := hcanonical.exists_of_prefix (List.prefix_append _ rest)
      have hlink := hcanonical.not_link_of_prefix (List.prefix_append _ rest)
      have hentry : tree.HasEntry here name child :=
        ⟨hchild, not_or.2 ⟨hplain.1, hplain.2.1⟩, hplain.2.2.1, by omega⟩
      rw [walkWith_enter hentry fun target htarget => hlink target (htarget ▸ hchild)]
      exact ih hcanonical hrest hnext hlong
    · exact walkWith_tooLong hdir hplain hnext

theorem resolve_path_of_long (hcanonical : tree.IsCanonical place) (hroot : tree.IsDirectory [])
    (hnames : ∀ name ∈ place, IsEntryName name) (hlong : pathLimit ≤ byteLength place.path) :
    tree.resolve place.path = .error .nameTooLong := by
  have hne : place ≠ [] := by
    rintro rfl
    exact absurd hlong (by decide)
  have hnul : place.path.toList.contains '\x00' = false := by
    rw [Bool.eq_false_iff, ne_eq, List.contains_iff_mem]
    exact nul_notMem_path hnames
  have hsome : place.path ≠ "" := by
    intro hempty
    rw [hempty] at hlong
    exact absurd hlong (by decide)
  obtain ⟨follow, hwalk⟩ := tree.walk_eq_walkWith true linkLimit
  rw [resolve, resolveWith, hnul, if_neg Bool.false_ne_true, if_neg hsome,
    isAbsolute_path, if_pos rfl,
    names_path hne fun n hn => (hcanonical.plain n hn).2.2.2, hwalk, walkWith_stay hroot (.inl rfl)]
  exact walkWith_of_long hcanonical (fun n hn => (hnames n hn).1) (by decide) hlong

theorem path_inj {found : Location} (hplace : ∀ name ∈ place, IsPlainName name)
    (hfound : ∀ name ∈ found, IsPlainName name) (h : found.path = place.path) : found = place := by
  have hnames : ∀ {place : Location}, (∀ name ∈ place, IsPlainName name) →
      (names place.path).filter (· ≠ "") = place := by
    intro place hplace
    have hkept : place.filter (· ≠ "") = place :=
      List.filter_eq_self.2 fun name hname => by simpa using (hplace name hname).1
    by_cases hne : place = []
    · rw [hne]
      decide
    · rw [names_path hne fun name hname => (hplace name hname).2.2.2,
        List.filter_cons_of_neg (by simp), hkept]
  rw [← hnames hfound, h, hnames hplace]

end FileTree

namespace FilePolicy

open FileTree

variable {policy : FilePolicy} {tree : FileTree} {place found : Location} {path other : String}

theorem permit_path (htree : tree.HasEntryNames) (h : policy.permit tree path = .ok place)
    (hshort : byteLength place.path < pathLimit) (allowed : Bool) :
    permit { policy with allowSymlinks := allowed } tree place.path = .ok place := by
  obtain ⟨-, hresolve, hroot⟩ := permit_eq_ok_iff.1 h
  have hlink := isLink_path_of_resolve htree hresolve
  have hagain := resolveWith_path_of_resolve htree hresolve hshort true
  exact permit_eq_ok_iff.2 ⟨fun hlinked => absurd hlinked (by simp [hlink]), hagain, hroot⟩

theorem permit_path_of_long (htree : tree.HasEntryNames) (h : tree.resolve path = .ok place)
    (hlong : pathLimit ≤ byteLength place.path) (policy : FilePolicy) :
    policy.permit tree place.path = .error (.cannotResolve place.path .nameTooLong) := by
  have hcanonical := isCanonical_of_resolve h
  obtain ⟨node, hnode⟩ := hcanonical.holds
  have hagain := resolve_path_of_long hcanonical (isDirectory_root_of_resolve h)
    (isEntryName_of_node? htree hnode) hlong
  simp [permit, isLink_path_of_resolve htree h, resolve, hagain, bind, Except.bind]

theorem path_eq_iff_leadsTo (h : policy.permit tree path = .ok place)
    (hother : policy.permit tree other = .ok found) :
    found.path = place.path ↔ ∃ target, tree.LeadsTo path target ∧ tree.LeadsTo other target := by
  have hresolve := (permit_eq_ok_iff.1 h).2.1
  have hfound := (permit_eq_ok_iff.1 hother).2.1
  constructor
  · intro hpath
    obtain rfl := path_inj (isCanonical_of_resolve hresolve).plain
      (isCanonical_of_resolve hfound).plain hpath
    exact ⟨found, leadsTo_of_resolve hresolve, leadsTo_of_resolve hfound⟩
  · rintro ⟨target, htarget, htarget'⟩
    rw [htarget.unique (leadsTo_of_resolve hresolve), htarget'.unique (leadsTo_of_resolve hfound)]

/-- A permitted path becomes one that is permitted as it is, and the same one for all spellings of
its place. Only the current directory and those above it can have a path that is too long for this,
and it is refused as such. -/
theorem permit_canonical (htree : tree.HasEntryNames) (h : policy.permit tree path = .ok place) :
    (byteLength place.path < pathLimit → policy.permit tree place.path = .ok place ∧
      permit { policy with allowSymlinks := false } tree place.path = .ok place) ∧
    (pathLimit ≤ byteLength place.path → isAbsolute path = false ∧ place <+: tree.current ∧
      policy.permit tree place.path = .error (.cannotResolve place.path .nameTooLong)) ∧
    ∀ other found, policy.permit tree other = .ok found →
      (found.path = place.path ↔ ∃ target, tree.LeadsTo path target ∧
        tree.LeadsTo other target) := by
  have hresolve := (permit_eq_ok_iff.1 h).2.1
  refine ⟨fun hshort => ?_, fun hlong => ?_, fun other found hother => path_eq_iff_leadsTo h hother⟩
  · exact ⟨permit_path htree h hshort policy.allowSymlinks, permit_path htree h hshort false⟩
  · obtain ⟨hrelative, hprefix⟩ := prefix_current_of_long hresolve hlong
    exact ⟨hrelative, hprefix, permit_path_of_long htree hresolve hlong policy⟩

def aliasTree : FileTree where
  root := .directory [("pub", .directory [
    ("report.txt", .file [104, 105]), ("alias", .link "/pub/latest"),
    ("latest", .link "report.txt")])]
  current := ["pub"]

theorem permit_canonical_alias :
    aliasTree.HasEntryNames ∧
    (FilePolicy.mk (some "../pub/.") true).permit aliasTree "./alias" = .ok ["pub", "report.txt"] ∧
    (FilePolicy.mk (some "../pub/.") false).permit aliasTree "/pub/report.txt" =
      .ok ["pub", "report.txt"] ∧
    ∃ target, aliasTree.LeadsTo "./alias" target ∧ aliasTree.LeadsTo "../pub/latest" target := by
  have htree : aliasTree.HasEntryNames := by decide +kernel
  have halias : (FilePolicy.mk (some "../pub/.") true).permit aliasTree "./alias" =
      .ok ["pub", "report.txt"] := by
    decide +kernel
  have hpath : Location.path ["pub", "report.txt"] = "/pub/report.txt" := by decide +kernel
  have hlatest : (FilePolicy.mk (some "../pub/.") true).permit aliasTree "../pub/latest" =
      .ok ["pub", "report.txt"] := by decide +kernel
  obtain ⟨hshort, -, hspelling⟩ := permit_canonical htree halias
  have hagain := (hshort (by rw [hpath]; decide)).2
  rw [hpath] at hagain
  exact ⟨htree, halias, hagain, (hspelling _ _ hlatest).1 rfl⟩

def nested (name : String) : Nat → Node
  | 0 => .empty
  | n + 1 => .directory [(name, nested name n)]

theorem entryNames_nested (name : String) (n : Nat) :
    (nested name n).entryNames = List.replicate n name := by
  induction n with
  | zero => rfl
  | succ n ih => simp [nested, Node.entryNames, Node.entryNamesOf, ih, List.replicate_succ]

theorem at?_nested (name : String) (n : Nat) :
    (nested name n).at? (List.replicate n name) = some .empty := by
  induction n with
  | zero => rfl
  | succ n ih => simp [nested, Node.at?, Node.child?, ih, List.replicate_succ]

def longName : String :=
  String.ofList (List.replicate 255 'd')

theorem toList_longName : longName.toList = List.replicate 255 'd' :=
  String.toList_ofList

theorem isPlainName_longName : IsPlainName longName := by
  have hother : ∀ text : String, text.toList.length ≠ 255 → longName ≠ text := by
    rintro text hlength rfl
    rw [toList_longName, List.length_replicate] at hlength
    exact hlength rfl
  refine ⟨hother "" (by decide), hother "." (by decide), hother ".." (by decide), fun hslash => ?_⟩
  rw [toList_longName] at hslash
  exact absurd (List.eq_of_mem_replicate hslash) (by decide)

theorem isEntryName_longName : IsEntryName longName := by
  rw [IsEntryName, byteLength, toList_longName]
  decide +kernel

/-- A tree whose current directory has too long a path. -/
def deepTree : FileTree where
  root := nested longName 16
  current := List.replicate 16 longName
  current_plain := fun _ hname => List.eq_of_mem_replicate hname ▸ isPlainName_longName

/-- The current directory is permitted as a dot, and its path is not. -/
theorem permit_deep_current : deepTree.HasEntryNames ∧
    (FilePolicy.mk none true).permit deepTree "." = .ok deepTree.current ∧
    (FilePolicy.mk none true).permit deepTree (Location.path deepTree.current) =
      .error (.cannotResolve (Location.path deepTree.current) .nameTooLong) := by
  have htree : deepTree.HasEntryNames := by
    intro name hname
    rw [deepTree, entryNames_nested] at hname
    exact List.eq_of_mem_replicate hname ▸ isEntryName_longName
  have hnode : deepTree.node? deepTree.current = some .empty := at?_nested longName 16
  have hresolve : deepTree.resolve "." = .ok deepTree.current :=
    resolve_eq_ok_iff.2 ⟨by decide, by decide, 0, by decide, .stay ⟨[], hnode⟩ (.inr rfl) (.done _)⟩
  have hlong : pathLimit ≤ byteLength (Location.path deepTree.current) := by
    have hne : deepTree.current ≠ [] := List.cons_ne_nil longName (List.replicate 15 longName)
    rw [byteLength, toList_path_of_ne_nil hne, deepTree]
    simp only [List.flatMap_replicate, toList_longName]
    decide +kernel
  have hroot : ∀ root, (FilePolicy.mk none true).rootPath ≠ some root :=
    fun root => (Option.some_ne_none root).symm
  refine ⟨htree, permit_eq_ok_iff.2 ⟨fun _ => rfl, hresolve,
    fun root h => absurd h (hroot root)⟩, ?_⟩
  exact permit_path_of_long htree hresolve hlong _

end FilePolicy

end Calculator
