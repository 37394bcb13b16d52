import Calculator.Proofs.FileTree.Resolution

/-!
# Opening files by their canonical path

A file that a path leads to was entered by its name, so its canonical path is not too long, and
following that path leads to the file again.
-/

namespace Calculator.FileTree

def IsEntryName (name : String) : Prop :=
  byteLength name ≤ nameLimit ∧ '\x00' ∉ name.toList

instance (name : String) : Decidable (IsEntryName name) :=
  inferInstanceAs (Decidable (_ ∧ _))

def IsEntered (tree : FileTree) (place : Location) : Prop :=
  ∀ content, tree.node? place = some (.file content) → place ≠ [] ∧
    byteLength place.path < pathLimit

variable {tree : FileTree} {place here : Location} {path : String} {pending : List String}

theorem isEntered_of_resolve (h : tree.resolve path = .ok place) : tree.IsEntered place := by
  obtain ⟨-, -, n, -, hleads⟩ := resolve_eq_ok_iff.1 h
  intro content hfile
  rcases hleads.arrives (names_ne_nil path) with ⟨entries, hdir⟩ | ⟨dir, name, node, hentry, -, rfl⟩
  · rw [hfile] at hdir
    cases hdir
  · exact ⟨List.concat_ne_nil name dir, Nat.not_le.1 (not_or.1 hentry.short).2⟩

theorem byteCount_append (cs ds : List Char) :
    Text.byteCount (cs ++ ds) = Text.byteCount cs + Text.byteCount ds := by
  induction cs with
  | nil => rw [List.nil_append, Text.byteCount_nil, Nat.zero_add]
  | cons c cs ih => rw [List.cons_append, Text.byteCount_cons, Text.byteCount_cons,
      ih, Nat.add_assoc]

theorem byteLength_path_append_le (hne : here ≠ []) (rest : Location) :
    byteLength here.path ≤ byteLength (here ++ rest : Location).path := by
  rw [byteLength, byteLength, toList_path_of_ne_nil hne, toList_path_of_ne_nil (by simp [hne]),
    List.flatMap_append, byteCount_append]
  exact Nat.le_add_right _ _

theorem leads_of_isCanonical (hcanonical : tree.IsCanonical (here ++ pending))
    (hnames : ∀ name ∈ pending, byteLength name ≤ nameLimit)
    (hpath : byteLength (here ++ pending : Location).path < pathLimit) :
    tree.Leads 0 here pending (here ++ pending) := by
  induction pending generalizing here with
  | nil =>
    rw [List.append_nil]
    exact .done here
  | cons name rest ih =>
    obtain ⟨hname, hrest⟩ := List.forall_mem_cons.1 hnames
    obtain ⟨hempty, hdot, hup, -⟩ := hcanonical.plain name (by simp)
    rw [List.append_cons] at hcanonical hpath ⊢
    have hstep := byteLength_path_append_le (List.concat_ne_nil name here) rest
    obtain ⟨node, hnode⟩ := hcanonical.exists_of_prefix (List.prefix_append _ rest)
    have hlink := hcanonical.not_link_of_prefix (List.prefix_append _ rest)
    have hentry : tree.HasEntry here name node :=
      ⟨hnode, not_or.2 ⟨hempty, hdot⟩, hup, by omega⟩
    exact .enter hentry (fun target hnode' => hlink target (hnode' ▸ hnode))
      (ih hcanonical hrest hpath)

theorem leads_path (hcanonical : tree.IsCanonical place) (hroot : tree.IsDirectory [])
    (hnames : ∀ name ∈ place, IsEntryName name) (hpath : byteLength place.path < pathLimit) :
    tree.Leads 0 [] (names place.path) place := by
  cases place with
  | nil =>
    have hslash : names (Location.path []) = ["", ""] := by decide
    rw [hslash]
    exact .stay hroot (.inl rfl) (.stay hroot (.inl rfl) (.done []))
  | cons first rest =>
    rw [names_path (List.cons_ne_nil first rest) fun n hn => (hcanonical.plain n hn).2.2.2]
    exact .stay hroot (.inl rfl) (leads_of_isCanonical hcanonical
      (fun n hn => (hnames n hn).1) hpath)

theorem nul_notMem_path (hnames : ∀ name ∈ place, IsEntryName name) :
    '\x00' ∉ place.path.toList := by
  cases place with
  | nil => decide
  | cons first rest =>
    rw [toList_path_of_ne_nil (List.cons_ne_nil first rest), List.mem_flatMap]
    rintro ⟨name, hname, hmem⟩
    rcases List.mem_cons.1 hmem with hslash | hmem
    · exact absurd hslash (by decide)
    · exact (hnames name hname).2 hmem

/-- A canonical path is resolved to its place, also where a last link is left alone. -/
theorem resolveWith_path (hcanonical : tree.IsCanonical place) (hroot : tree.IsDirectory [])
    (hnames : ∀ name ∈ place, IsEntryName name) (hpath : byteLength place.path < pathLimit)
    (followLast : Bool) :
    tree.resolveWith followLast place.path = .ok place := by
  have hnul : place.path.toList.contains '\x00' = false := by
    rw [Bool.eq_false_iff, ne_eq, List.contains_iff_mem]
    exact nul_notMem_path hnames
  have hsome : place.path ≠ "" := by
    intro hempty
    have habsolute := isAbsolute_path place
    rw [hempty] at habsolute
    exact absurd habsolute (by decide)
  have hwalk : tree.walk followLast (linkLimit + 0) [] (names place.path ++ []) =
      tree.walk followLast linkLimit place [] :=
    walk_append (leads_path hcanonical hroot hnames hpath) (.inr (.inr rfl))
  rw [List.append_nil, Nat.add_zero, walk_nil] at hwalk
  rw [resolveWith, hnul, if_neg Bool.false_ne_true, if_neg hsome, isAbsolute_path,
    if_pos rfl, hwalk]

theorem open?_path_of_resolve {content : Bytes} (h : tree.resolve path = .ok place)
    (hnode : tree.node? place = some (.file content)) (hnames : ∀ name ∈ place, IsEntryName name) :
    tree.open? place.path = .ok (.file content) := by
  obtain ⟨hne, hpath⟩ := isEntered_of_resolve h content hnode
  have hresolve : tree.resolve place.path = .ok place :=
    resolveWith_path (isCanonical_of_resolve h) (isDirectory_root hne hnode) hnames hpath true
  simp only [open?, if_neg (Nat.not_le.2 hpath), hresolve, bind, Except.bind, hnode]

end Calculator.FileTree
