import Calculator.FileTree.Policy

/-!
# What a path leads to

Following names is a relation between the directory where it starts and the place where it ends: a
name stays, goes up, enters what is no link, or is that of a link, whose names come next. The
relation counts the links and knows no order of evaluation, so what two parts of a path do is what
the whole path does. Resolving a path finds exactly what the path leads to by as many links as may
be followed.
-/

namespace Calculator

namespace Node

theorem at?_append (node : Node) (p q : Location) :
    node.at? (p ++ q) = (node.at? p).bind (·.at? q) := by
  induction p generalizing node with
  | nil => rfl
  | cons name p ih =>
    simp only [List.cons_append, at?]
    cases node.child? name with
    | none => rfl
    | some child => exact ih child

theorem eq_directory_of_child? {node child : Node} {name : String}
    (h : node.child? name = some child) :
    ∃ entries, node = .directory entries := by
  cases node with
  | directory entries => exact ⟨entries, rfl⟩
  | file content => cases h
  | link target => cases h

end Node

namespace FileTree

def IsDirectory (tree : FileTree) (place : Location) : Prop :=
  ∃ entries, tree.node? place = some (.directory entries)

structure HasEntry (tree : FileTree) (here : Location) (name : String) (node : Node) : Prop where
  node : tree.node? (here ++ [name]) = some node
  not_stay : ¬(name = "" ∨ name = ".")
  not_up : name ≠ ".."
  short : ¬(nameLimit < byteLength name ∨ pathLimit ≤ byteLength (here ++ [name] : Location).path)

/-- Where names lead from a directory, and how many links are followed on the way. -/
inductive Leads (tree : FileTree) : Nat → Location → List String → Location → Prop
  | done (here : Location) : Leads tree 0 here [] here
  | stay {n : Nat} {here place : Location} {name : String} {rest : List String}
      (hdir : tree.IsDirectory here)
    (hname : name = "" ∨ name = ".") (hrest : Leads tree n here rest place) :
      Leads tree n here (name :: rest) place
  | up {n : Nat} {here place : Location} {rest : List String} (hdir : tree.IsDirectory here)
    (hrest : Leads tree n here.dropLast rest place) : Leads tree n here (".." :: rest) place
  | enter {n : Nat} {here place : Location} {name : String} {node : Node} {rest : List String}
    (hentry : tree.HasEntry here name node) (hnode : ∀ target, node ≠ .link target)
    (hrest : Leads tree n (here ++ [name]) rest place) : Leads tree n here (name :: rest) place
  | follow {n : Nat} {here place : Location} {name target : String} {rest : List String}
    (hentry : tree.HasEntry here name (.link target))
    (hrest : Leads tree n (if isAbsolute target then [] else here) (names target ++ rest) place) :
    Leads tree (n + 1) here (name :: rest) place

variable {tree : FileTree} {place found here middle : Location} {name target : String}
  {pending front rest : List String} {node : Node} {followLast : Bool} {links n m : Nat}

theorem node?_concat {dir : Node} (h : tree.node? here = some dir) (name : String) :
    tree.node? (here ++ [name]) = dir.child? name := by
  rw [node?, Node.at?_append, ← node?, h, Option.bind_some]
  cases hchild : dir.child? name <;> simp [Node.at?, hchild]

theorem eq_directory_of_node?_append {rest : Location} {node : Node}
    (h : tree.node? (here ++ name :: rest) = some node) :
    ∃ entries, tree.node? here = some (.directory entries) := by
  rw [node?, Node.at?_append, ← node?] at h
  obtain ⟨dir, hdir, hnode⟩ := Option.bind_eq_some_iff.1 h
  obtain ⟨child, hchild, -⟩ := Option.bind_eq_some_iff.1 hnode
  obtain ⟨entries, rfl⟩ := Node.eq_directory_of_child? hchild
  exact ⟨entries, hdir⟩

theorem isDirectory_root (hne : place ≠ []) (h : tree.node? place = some node) :
    tree.IsDirectory [] := by
  obtain ⟨first, rest, rfl⟩ := List.exists_cons_of_ne_nil hne
  rw [← List.nil_append (first :: rest)] at h
  exact eq_directory_of_node?_append h

theorem IsDirectory.dropLast (h : tree.IsDirectory here) : tree.IsDirectory here.dropLast := by
  rcases List.eq_nil_or_concat here with rfl | ⟨front, name, rfl⟩
  · exact h
  · obtain ⟨entries, h⟩ := h
    rw [List.concat_eq_append] at h ⊢
    rw [List.dropLast_concat]
    exact eq_directory_of_node?_append h

section Step

variable {follow : Location → List String → Except FileFault Location}

theorem walkWith_stay (hdir : tree.IsDirectory here) (hname : name = "" ∨ name = ".") :
    tree.walkWith followLast follow here (name :: rest) =
      tree.walkWith followLast follow here rest := by
  obtain ⟨entries, hdir⟩ := hdir
  rw [walkWith, hdir]
  simp only [hname, if_true]

theorem walkWith_up (hdir : tree.IsDirectory here) :
    tree.walkWith followLast follow here (".." :: rest) =
      tree.walkWith followLast follow here.dropLast rest := by
  obtain ⟨entries, hdir⟩ := hdir
  rw [walkWith, hdir]
  simp

theorem HasEntry.child (h : tree.HasEntry here name node) :
    ∃ entries, tree.node? here = some (.directory entries) ∧
      (Node.directory entries).child? name = some node := by
  obtain ⟨entries, hdir⟩ := eq_directory_of_node?_append h.node
  exact ⟨entries, hdir, (node?_concat hdir name).symm.trans h.node⟩

theorem HasEntry.fits (h : tree.HasEntry here name node) : ¬(nameLimit < byteLength name ∨
    followLast = true ∧ pathLimit ≤ byteLength (here ++ [name] : Location).path) := by
  obtain ⟨hname, hpath⟩ := not_or.1 h.short
  exact not_or.2 ⟨hname, fun hlong => hpath hlong.2⟩

theorem HasEntry.isDirectory (h : tree.HasEntry here name node) : tree.IsDirectory here :=
  eq_directory_of_node?_append h.node

theorem walkWith_enter (hentry : tree.HasEntry here name node)
    (hnode : ∀ target, node ≠ .link target) :
    tree.walkWith followLast follow here (name :: rest) = tree.walkWith followLast follow
      (here ++ [name]) rest := by
  obtain ⟨entries, hdir, hchild⟩ := hentry.child
  rw [walkWith, hdir]
  simp only [hentry.not_stay, hentry.not_up, hentry.fits, if_false, hchild]

theorem walkWith_follow (hentry : tree.HasEntry here name (.link target)) :
    tree.walkWith followLast follow here (name :: rest) =
      if followLast = false ∧ rest = [] then .ok (here ++ [name])
      else follow (if isAbsolute target then [] else here) (names target ++ rest) := by
  obtain ⟨entries, hdir, hchild⟩ := hentry.child
  rw [walkWith, hdir]
  simp only [hentry.not_stay, hentry.not_up, hentry.fits, if_false, hchild]

theorem walkWith_cases (h : tree.walkWith true follow here (name :: rest) = .ok place) :
    (tree.IsDirectory here ∧ (name = "" ∨ name = ".") ∧
      tree.walkWith true follow here rest = .ok place) ∨
    (tree.IsDirectory here ∧ name = ".." ∧
      tree.walkWith true follow here.dropLast rest = .ok place) ∨
    (∃ node, tree.HasEntry here name node ∧ (∀ target, node ≠ .link target) ∧
      tree.walkWith true follow (here ++ [name]) rest = .ok place) ∨
    ∃ target, tree.HasEntry here name (.link target) ∧
      follow (if isAbsolute target then [] else here) (names target ++ rest) = .ok place := by
  rw [walkWith] at h
  split at h
  · next entries hdir =>
    split at h
    · next hstay => exact .inl ⟨⟨entries, hdir⟩, hstay, h⟩
    next hstay =>
    split at h
    · next hup => exact .inr (.inl ⟨⟨entries, hdir⟩, hup, h⟩)
    next hup =>
    split at h
    · cases h
    next hshort =>
    simp only [true_and] at hshort
    split at h
    · cases h
    · next target hchild =>
      rw [← node?_concat hdir] at hchild
      exact .inr (.inr (.inr ⟨target, ⟨hchild, hstay, hup, hshort⟩, by simpa using h⟩))
    · next node hlink hchild =>
      rw [← node?_concat hdir] at hchild
      exact .inr (.inr (.inl ⟨node, ⟨hchild, hstay, hup, hshort⟩,
        fun target hnode => hlink target hnode, h⟩))
  · cases h

end Step

theorem exists_leads_of_walkWith {follow : Location → List String → Except FileFault Location}
    (hfollow : ∀ {here pending place}, follow here pending = .ok place →
      ∃ n < links, tree.Leads n here pending place)
    (h : tree.walkWith true follow here pending = .ok place) : ∃ n ≤ links,
      tree.Leads n here pending place := by
  induction pending generalizing here with
  | nil =>
    cases h
    exact ⟨0, Nat.zero_le links, .done _⟩
  | cons name rest ih =>
    rcases walkWith_cases h with ⟨hdir, hname, hnext⟩ | ⟨hdir, rfl, hnext⟩ |
      ⟨node, hentry, hnode, hnext⟩ |
      ⟨target, hentry, hnext⟩
    · obtain ⟨n, hn, hrest⟩ := ih hnext
      exact ⟨n, hn, .stay hdir hname hrest⟩
    · obtain ⟨n, hn, hrest⟩ := ih hnext
      exact ⟨n, hn, .up hdir hrest⟩
    · obtain ⟨n, hn, hrest⟩ := ih hnext
      exact ⟨n, hn, .enter hentry hnode hrest⟩
    · obtain ⟨n, hn, hrest⟩ := hfollow hnext
      exact ⟨n + 1, hn, .follow hentry hrest⟩

theorem exists_leads_of_walk (h : tree.walk true links here pending = .ok place) :
    ∃ n ≤ links, tree.Leads n here pending place := by
  induction links generalizing here pending place with
  | zero => exact exists_leads_of_walkWith (by intros; contradiction) h
  | succ links ih =>
    refine exists_leads_of_walkWith (fun hfollow => ?_) h
    obtain ⟨n, hn, hrest⟩ := ih hfollow
    exact ⟨n, Nat.lt_succ_of_le hn, hrest⟩

/-- What a walk does about the names of a link. -/
theorem walk_eq_walkWith (tree : FileTree) (followLast : Bool) (links : Nat) :
    ∃ follow, tree.walk followLast links = tree.walkWith followLast follow := by
  cases links with
  | zero => exact ⟨_, rfl⟩
  | succ links => exact ⟨_, rfl⟩

theorem walk_append (h : tree.Leads n here front middle)
    (hfollow : followLast = true ∨ rest ≠ [] ∨ n = 0) :
    tree.walk followLast (links + n) here (front ++ rest) =
      tree.walk followLast links middle rest := by
  induction h with
  | done here => rfl
  | @stay n _ _ _ _ hdir hname _ ih =>
    obtain ⟨follow, hwalk⟩ := tree.walk_eq_walkWith followLast (links + n)
    rw [← ih hfollow, List.cons_append, hwalk, walkWith_stay hdir hname]
  | @up n _ _ _ hdir _ ih =>
    obtain ⟨follow, hwalk⟩ := tree.walk_eq_walkWith followLast (links + n)
    rw [← ih hfollow, List.cons_append, hwalk, walkWith_up hdir]
  | @enter n _ _ _ _ _ hentry hnode _ ih =>
    obtain ⟨follow, hwalk⟩ := tree.walk_eq_walkWith followLast (links + n)
    rw [← ih hfollow, List.cons_append, hwalk, walkWith_enter hentry hnode]
  | @follow n _ _ name target front hentry hrest ih =>
    have hlast : ¬(followLast = false ∧ front ++ rest = []) := by
      simp only [List.append_eq_nil_iff, Nat.add_eq_zero_iff, Nat.one_ne_zero,
        and_false, or_false] at hfollow ⊢
      rintro ⟨rfl, -, hnil⟩
      simp [hnil] at hfollow
    have hfollow' : followLast = true ∨ rest ≠ [] ∨ n = 0 := by
      simp only [Nat.add_eq_zero_iff, Nat.one_ne_zero, and_false, or_false] at hfollow
      exact hfollow.imp_right .inl
    rw [← ih hfollow', List.append_assoc, List.cons_append, ← Nat.add_assoc,
      walk, walkWith_follow hentry, if_neg hlast]

theorem walk_eq_ok_iff :
    tree.walk true links here pending = .ok place ↔ ∃ n ≤ links,
      tree.Leads n here pending place := by
  constructor
  · exact exists_leads_of_walk
  · rintro ⟨n, hn, h⟩
    have happend :
        tree.walk true (links - n + n) here (pending ++ []) = tree.walk true (links - n) place [] :=
      walk_append h (.inl rfl)
    rwa [Nat.sub_add_cancel hn, List.append_nil, walk_nil] at happend

theorem Leads.unique (h : tree.Leads n here pending place) (h' : tree.Leads m here pending found) :
    found = place := by
  have hplace := walk_eq_ok_iff.2 ⟨n, Nat.le_add_right n m, h⟩
  have hfound := walk_eq_ok_iff.2 ⟨m, Nat.le_add_left m n, h'⟩
  exact Except.ok.inj (hfound.symm.trans hplace)

theorem Leads.append (h : tree.Leads m here front middle) (h' : tree.Leads n middle rest place) :
    tree.Leads (n + m) here (front ++ rest) place := by
  induction h with
  | done here => exact h'
  | stay hdir hname _ ih => exact .stay hdir hname (ih h')
  | up hdir _ ih => exact .up hdir (ih h')
  | enter hentry hnode _ ih => exact .enter hentry hnode (ih h')
  | follow hentry _ ih =>
    have hrest := ih h'
    rw [List.append_assoc] at hrest
    exact .follow hentry hrest

theorem Leads.split (h : tree.Leads n here (front ++ rest) place) :
    ∃ middle m k, tree.Leads m here front middle ∧ tree.Leads k middle rest place ∧ k + m = n := by
  generalize hpending : front ++ rest = pending at h
  induction h generalizing front with
  | done here =>
    obtain ⟨rfl, rfl⟩ := List.append_eq_nil_iff.1 hpending
    exact ⟨here, 0, 0, .done here, .done here, rfl⟩
  | @stay n here place name pending hdir hname hrest ih =>
    rcases List.append_eq_cons_iff.1 hpending with ⟨rfl, rfl⟩ | ⟨front, rfl, hfront⟩
    · exact ⟨here, 0, n, .done here, .stay hdir hname hrest, rfl⟩
    · obtain ⟨middle, m, k, hfirst, hlast, hcount⟩ := ih hfront.symm
      exact ⟨middle, m, k, .stay hdir hname hfirst, hlast, hcount⟩
  | @up n here place pending hdir hrest ih =>
    rcases List.append_eq_cons_iff.1 hpending with ⟨rfl, rfl⟩ | ⟨front, rfl, hfront⟩
    · exact ⟨here, 0, n, .done here, .up hdir hrest, rfl⟩
    · obtain ⟨middle, m, k, hfirst, hlast, hcount⟩ := ih hfront.symm
      exact ⟨middle, m, k, .up hdir hfirst, hlast, hcount⟩
  | @enter n here place name node pending hentry hnode hrest ih =>
    rcases List.append_eq_cons_iff.1 hpending with ⟨rfl, rfl⟩ | ⟨front, rfl, hfront⟩
    · exact ⟨here, 0, n, .done here, .enter hentry hnode hrest, rfl⟩
    · obtain ⟨middle, m, k, hfirst, hlast, hcount⟩ := ih hfront.symm
      exact ⟨middle, m, k, .enter hentry hnode hfirst, hlast, hcount⟩
  | @follow n here place name target pending hentry hrest ih =>
    rcases List.append_eq_cons_iff.1 hpending with ⟨rfl, rfl⟩ | ⟨front, rfl, rfl⟩
    · exact ⟨here, 0, n + 1, .done here, .follow hentry hrest, rfl⟩
    · obtain ⟨middle, m, k, hfirst, hlast, hcount⟩ := ih (List.append_assoc ..)
      exact ⟨middle, m + 1, k, .follow hentry hfirst, hlast, congrArg Nat.succ hcount⟩

/-- The place that a path leads to, by however many links. -/
def LeadsTo (tree : FileTree) (path : String) (place : Location) : Prop :=
  ∃ n, tree.Leads n (if isAbsolute path then [] else tree.current) (names path) place

theorem resolve_eq_ok_iff {path : String} : tree.resolve path = .ok place ↔
    '\x00' ∉ path.toList ∧ path ≠ "" ∧
      ∃ n ≤ linkLimit, tree.Leads n (if isAbsolute path then [] else tree.current)
      (names path) place := by
  unfold resolve resolveWith
  rw [← walk_eq_ok_iff]
  split
  · next hnul => simp [List.contains_iff_mem.1 hnul]
  next hnul =>
  rw [List.contains_iff_mem] at hnul
  split
  · next hempty => simp [hempty]
  · next hsome => simp [hnul, hsome]

theorem leadsTo_of_resolve {path : String} (h : tree.resolve path = .ok place) :
    tree.LeadsTo path place := by
  obtain ⟨-, -, n, -, hleads⟩ := resolve_eq_ok_iff.1 h
  exact ⟨n, hleads⟩

theorem isLink_eq_true_iff {path : String} :
    tree.isLink path = true ↔ byteLength path < pathLimit ∧
      ∃ place target, tree.resolveWith false path = .ok place ∧
      tree.node? place = some (.link target) := by
  unfold isLink
  split
  · next hlong => simp [Nat.not_lt.2 hlong]
  next hshort =>
  simp only [Nat.not_le.1 hshort, true_and]
  cases tree.resolveWith false path with
  | error fault => simp
  | ok place => cases hnode : tree.node? place with
    | none => simp [hnode]
    | some node => cases node <;> simp [hnode]

theorem LeadsTo.unique {path : String} (h : tree.LeadsTo path place)
    (h' : tree.LeadsTo path found) :
    found = place := by
  obtain ⟨n, hplace⟩ := h
  obtain ⟨m, hfound⟩ := h'
  exact hplace.unique hfound

end FileTree

end Calculator
