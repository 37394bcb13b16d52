import Calculator.Proofs.FileTree.Leading

/-!
# Where paths lead

While a path is followed, the directory reached so far is spelled by plain names and has no link
among its prefixes, whatever the links on the way and the order in which they are taken. So a path
leads to a canonical place only, and a canonical place is found again under its own path.
-/

namespace Calculator

namespace FileTree

/-- A place spelled by plain names that holds something other than a link. -/
structure IsCanonical (tree : FileTree) (place : Location) : Prop where
  plain : ∀ name ∈ place, IsPlainName name
  holds : ∃ node, tree.node? place = some node
  not_link : ∀ target, tree.node? place ≠ some (.link target)

variable {tree : FileTree} {place here : Location} {name : String} {pending : List String} {n : Nat}

/-- Lookup never passes a link, so there is none on the way to a place that holds something else. -/
theorem IsCanonical.not_link_of_prefix (h : tree.IsCanonical place) (hp : here <+: place)
    (target : String) :
    tree.node? here ≠ some (.link target) := by
  obtain ⟨rest, rfl⟩ := hp
  obtain ⟨node, hnode⟩ := h.holds
  cases rest with
  | nil => simpa using h.not_link target
  | cons name rest =>
    obtain ⟨entries, hdir⟩ := eq_directory_of_node?_append hnode
    simp [hdir]

theorem IsCanonical.exists_of_prefix (h : tree.IsCanonical place) (hp : here <+: place) :
    ∃ node, tree.node? here = some node := by
  obtain ⟨rest, rfl⟩ := hp
  obtain ⟨node, hnode⟩ := h.holds
  rw [node?, Node.at?_append] at hnode
  obtain ⟨found, hfound, -⟩ := Option.bind_eq_some_iff.1 hnode
  exact ⟨found, hfound⟩

theorem isCanonical_of_directory {entries : List (String × Node)}
    (hplain : ∀ name ∈ here, IsPlainName name)
    (h : tree.node? here = some (.directory entries)) : tree.IsCanonical here :=
  ⟨hplain, ⟨_, h⟩, by simp [h]⟩

theorem notMem_of_mem_names {path : String} (h : name ∈ names path) : '/' ∉ name.toList := by
  obtain ⟨part, hpart, rfl⟩ := List.mem_map.1 h
  simpa using Text.notMem_of_mem_split hpart

theorem names_ne_nil (path : String) : names path ≠ [] := by
  simp [names, Text.split_ne_nil]

theorem toList_path_of_ne_nil (h : place ≠ []) :
    place.path.toList = place.flatMap fun name => '/' :: name.toList := by
  cases place with
  | nil => exact absurd rfl h
  | cons first rest => simp [Location.path, String.toList_join, List.flatMap_map]

theorem split_flatMap (h : ∀ name ∈ place, '/' ∉ name.toList) :
    ∀ {first : List Char}, '/' ∉ first →
      Text.split '/' (first ++ place.flatMap fun name => '/' :: name.toList) =
        first :: place.map String.toList := by
  induction place with
  | nil => intro first hfirst; simpa using Text.split_of_notMem hfirst
  | cons name rest ih =>
    intro first hfirst
    have hrest := ih (fun n hn => h n (List.mem_cons_of_mem name hn)) (h name List.mem_cons_self)
    simp only [List.flatMap_cons, List.cons_append, List.map_cons]
    rw [Text.split_append_separator hfirst, hrest]

theorem names_path (hne : place ≠ []) (h : ∀ name ∈ place, '/' ∉ name.toList) :
    names place.path = "" :: place := by
  have hsplit := split_flatMap h (List.not_mem_nil (a := '/'))
  rw [List.nil_append, ← toList_path_of_ne_nil hne] at hsplit
  simp [names, hsplit, Function.comp_def]

theorem isAbsolute_path (place : Location) : isAbsolute place.path = true := by
  cases place with
  | nil => decide
  | cons first rest => simp [isAbsolute, toList_path_of_ne_nil]

theorem HasEntry.isPlainName {node : Node} (h : tree.HasEntry here name node)
    (hslash : '/' ∉ name.toList) :
    IsPlainName name := by
  obtain ⟨hempty, hdot⟩ := not_or.1 h.not_stay
  exact ⟨hempty, hdot, h.not_up, hslash⟩

theorem Leads.plain (h : tree.Leads n here pending place) (hhere : ∀ name ∈ here, IsPlainName name)
    (hpending : ∀ name ∈ pending, '/' ∉ name.toList) : ∀ name ∈ place, IsPlainName name := by
  induction h with
  | done here => exact hhere
  | stay _ _ _ ih => exact ih hhere (List.forall_mem_cons.1 hpending).2
  | up _ _ ih => exact ih (fun n hn => hhere n
      (List.dropLast_subset _ hn)) (List.forall_mem_cons.1 hpending).2
  | @enter _ here _ name _ _ hentry _ _ ih =>
    obtain ⟨hslash, hrest⟩ := List.forall_mem_cons.1 hpending
    refine ih (fun n hn => ?_) hrest
    rcases List.mem_append.1 hn with hn | hn
    · exact hhere n hn
    · rw [List.mem_singleton.1 hn]
      exact hentry.isPlainName hslash
  | follow _ _ ih =>
    refine ih ?_ fun n hn => ?_
    · split
      · exact nofun
      · exact hhere
    · rcases List.mem_append.1 hn with hn | hn
      · exact notMem_of_mem_names hn
      · exact (List.forall_mem_cons.1 hpending).2 n hn

theorem Leads.arrives (h : tree.Leads n here pending place) (hne : pending ≠ []) :
    tree.IsDirectory place ∨
      ∃ dir name node, tree.HasEntry dir name node ∧ (∀ target, node ≠ .link target) ∧
      place = dir ++ [name] := by
  induction h with
  | done here => exact absurd rfl hne
  | @stay _ here _ _ rest hdir _ hrest ih =>
    cases rest with
    | nil =>
      cases hrest
      exact .inl hdir
    | cons next rest => exact ih (List.cons_ne_nil next rest)
  | @up _ here _ rest hdir hrest ih =>
    cases rest with
    | nil =>
      cases hrest
      exact .inl hdir.dropLast
    | cons next rest => exact ih (List.cons_ne_nil next rest)
  | @enter _ here _ name node rest hentry hnode hrest ih =>
    cases rest with
    | nil =>
      cases hrest
      exact .inr ⟨here, name, node, hentry, hnode, rfl⟩
    | cons next rest => exact ih (List.cons_ne_nil next rest)
  | follow _ _ ih => exact ih (by simp [names_ne_nil])

theorem isCanonical_of_resolve {path : String} (h : tree.resolve path = .ok place) :
    tree.IsCanonical place := by
  obtain ⟨-, -, n, -, hleads⟩ := resolve_eq_ok_iff.1 h
  have hstart : ∀ name ∈ (if isAbsolute path then [] else tree.current), IsPlainName name := by
    split
    · exact nofun
    · exact tree.current_plain
  have hplain := hleads.plain hstart fun _ hn => notMem_of_mem_names hn
  rcases hleads.arrives (names_ne_nil path) with ⟨entries, hdir⟩ |
    ⟨dir, name, node, hentry, hnode, rfl⟩
  · exact isCanonical_of_directory hplain hdir
  · refine ⟨hplain, ⟨node, hentry.node⟩, fun target htarget => hnode target ?_⟩
    exact Option.some.inj (hentry.node.symm.trans htarget)

theorem Leads.eq_of_isCanonical (h : tree.Leads n here pending place)
    (hcanonical : tree.IsCanonical (here ++ pending)) : place = here ++ pending := by
  induction h with
  | done here => exact (List.append_nil here).symm
  | @stay _ _ _ name _ _ hname _ _ =>
    obtain ⟨hempty, hdot, -⟩ := hcanonical.plain name (by simp)
    exact absurd hname (not_or.2 ⟨hempty, hdot⟩)
  | up =>
    obtain ⟨-, -, hup, -⟩ := hcanonical.plain ".." (by simp)
    exact absurd rfl hup
  | @enter _ here _ name _ rest _ _ _ ih =>
    rw [List.append_cons] at hcanonical ⊢
    exact ih hcanonical
  | @follow _ here _ name target rest hentry _ _ =>
    rw [List.append_cons] at hcanonical
    exact absurd hentry.node (hcanonical.not_link_of_prefix (List.prefix_append _ rest) target)

theorem Leads.of_stay (h : tree.Leads n here (name :: pending) place)
    (hname : name = "" ∨ name = ".") :
    tree.Leads n here pending place := by
  cases h with
  | stay _ _ hrest => exact hrest
  | up => exact absurd hname (by decide)
  | enter hentry => exact absurd hname hentry.not_stay
  | follow hentry => exact absurd hname hentry.not_stay

theorem eq_of_resolve_path (hcanonical : tree.IsCanonical place) {found : Location}
    (h : tree.resolve place.path = .ok found) : found = place := by
  obtain ⟨-, -, n, -, hleads⟩ := resolve_eq_ok_iff.1 h
  rw [isAbsolute_path, if_pos rfl] at hleads
  cases place with
  | nil =>
    have hnames : names (Location.path []) = ["", ""] := by decide
    rw [hnames] at hleads
    exact ((hleads.of_stay (.inl rfl)).of_stay (.inl rfl)).eq_of_isCanonical hcanonical
  | cons first rest =>
    rw [names_path (List.cons_ne_nil first rest) fun n hn => (hcanonical.plain n hn).2.2.2]
      at hleads
    exact (hleads.of_stay (.inl rfl)).eq_of_isCanonical hcanonical

theorem node?_of_open?_path (hcanonical : tree.IsCanonical place) {node : Node}
    (h : tree.open? place.path = .ok node) : tree.node? place = some node := by
  unfold open? at h
  split at h
  · cases h
  cases hresolve : tree.resolve place.path with
  | error fault => simp [hresolve, bind, Except.bind] at h
  | ok found =>
    obtain rfl := eq_of_resolve_path hcanonical hresolve
    simp only [hresolve, bind, Except.bind] at h
    split at h
    · next hnode => cases h; exact hnode
    · cases h

end FileTree

namespace FilePolicy

theorem permit_eq_ok_iff {policy : FilePolicy} {tree : FileTree} {path : String}
    {place : Location} :
    policy.permit tree path = .ok place ↔
      (tree.isLink path = true → policy.allowSymlinks = true) ∧ tree.resolve path = .ok place ∧
        ∀ root, policy.rootPath = some root → ∃ outer, tree.resolve root = .ok outer ∧
        outer <+: place := by
  unfold permit
  split
  · next hlink => simp [hlink]
  next hlink =>
  have hallowed : tree.isLink path = true → policy.allowSymlinks = true := by
    simpa using hlink
  cases hplace : tree.resolve path with
  | error fault => cases fault <;> simp [resolve, hplace, bind, Except.bind]
  | ok found =>
    cases hroot : policy.rootPath with
    | none =>
      simp only [resolve, hplace, bind, Except.bind]
      simpa using fun _ => hallowed
    | some root =>
      cases houter : tree.resolve root with
      | error fault => simp [resolve, resolveRoot, hplace, houter, bind, Except.bind]
      | ok outer =>
        simp only [resolve, resolveRoot, hplace, houter, bind, Except.bind, Location.isWithin,
          List.isPrefixOf_iff_prefix, Option.some.injEq, Except.ok.injEq]
        by_cases hin : outer <+: found
        · rw [if_pos hin, Except.ok.injEq]
          refine ⟨?_, fun h => h.2.1⟩
          rintro rfl
          exact ⟨hallowed, rfl, fun _ h => ⟨outer, h ▸ houter, hin⟩⟩
        · rw [if_neg hin]
          refine ⟨nofun, ?_⟩
          rintro ⟨-, rfl, hroots⟩
          obtain ⟨outer', houter', hin'⟩ := hroots root rfl
          cases houter.symm.trans houter'
          exact absurd hin' hin

end FilePolicy

end Calculator
