import Calculator.Proofs.Json.Layout
import Calculator.Proofs.Json.RecordRendering
import Calculator.Proofs.Settings.Transport
import Calculator.Settings.Document

/-!
# Settings read back from their document

Every group of the settings is read back from any rendering of its document. The members of a
transport besides its kind wait as values until the kind is known, so the kind may stand anywhere
among them.
-/

namespace Calculator

open Json

variable {α σ : Type} {ms : List (String × Json)} {t w : List Char} {fuel depth bound : Nat}

namespace Json.Shape

theorem natural_whole {n : Whole} {k : Nat} (hval : n.val = k) (hk : k < bound)
    (expected : String) :
    natural bound expected (.whole n) = .ok k := by
  have hbounds : 0 ≤ n.val ∧ n.val < bound := by omega
  rw [natural, if_pos hbounds, hval, Int.toNat_natCast]

theorem uint16_ofNat (port : UInt16) : uint16 (.whole (.ofNat port.toNat)) = .ok port := by
  have hport := port.toNat_lt
  have hval : (Whole.ofNat port.toNat).val = (port.toNat : Int) := by
    have hsmall : port.toNat % 2 ^ 64 = port.toNat := Nat.mod_eq_of_lt (by omega)
    simp only [Whole.ofNat, Whole.ofUInt64, UInt64.toNat_ofNat', hsmall]
  rw [uint16, natural_whole hval hport, Except.map_ok, UInt16.ofNat_toNat]

theorem uint64_ofUInt64 (n : UInt64) : uint64 (.whole (.ofUInt64 n)) = .ok n := by
  rw [uint64, natural_whole rfl n.toNat_lt, Except.map_ok, UInt64.ofNat_toNat]

theorem size_ofUInt64 (n : UInt64) : size (.whole (.ofUInt64 n)) = .ok n := by
  rw [size, natural_whole rfl n.toNat_lt, Except.map_ok, UInt64.ofNat_toNat]

theorem string_string (s : String) : string (.string s) = .ok s := rfl

theorem bool_bool (b : Bool) : bool (.bool b) = .ok b := rfl

theorem nullable_text (expected : String) (s : Option String) :
    nullable (text expected) (s.elim .null .string) = .ok s := by
  cases s <;> rfl

end Json.Shape

namespace Transport

variable {tr : Transport}

def tag (tr : Transport) : String × Json :=
  ("type", .string tr.kind.name)

def members : Transport → List (String × Json)
  | .stdio => []
  | .tcp e => [("port", .whole (.ofNat e.port.toNat)), ("host", .string e.host)]
  | .http e => [
    ("port", .whole (.ofNat e.port.toNat)),
    ("host", .string e.host),
    ("rpc_path", .string e.rpcPath),
    ("enable_cors", .bool e.enableCors)]

theorem document_eq (tr : Transport) : tr.document = .object (tr.tag :: tr.members) := by
  cases tr <;> rfl

theorem nodup_keys_members (tr : Transport) : (tr.members.map (·.1)).Nodup := by
  cases tr <;> simp [members]

theorem ne_type_of_mem_members {m : String × Json} (hm : m ∈ tr.members) : m.1 ≠ "type" := by
  cases tr <;> simp only [members, List.mem_cons, List.not_mem_nil, or_false] at hm
  case tcp => rcases hm with rfl | rfl <;> simp
  case http => rcases hm with rfl | rfl | rfl | rfl <;> simp

theorem depth_of_mem_members {m : String × Json} (hm : m ∈ tr.members) : m.2.depth = 0 := by
  cases tr <;> simp only [members, List.mem_cons, List.not_mem_nil, or_false] at hm
  case tcp => rcases hm with rfl | rfl <;> rfl
  case http => rcases hm with rfl | rfl | rfl | rfl <;> rfl

def draft (tr : Transport) (keys : List String) : Draft :=
  match tr with
  | .stdio => {}
  | .tcp e => { port := pending "port" e.port keys, host := pending "host" e.host keys }
  | .http e => {
    port := pending "port" e.port keys
    host := pending "host" e.host keys
    rpcPath := pending "rpc_path" e.rpcPath keys
    enableCors := pending "enable_cors" e.enableCors keys }

theorem draft_of_keys {keys : List String} (h : ∀ m ∈ tr.members, m.1 ∈ keys) :
    tr.draft keys = {} := by
  cases tr with
  | stdio => rfl
  | tcp e =>
    simp only [members, List.forall_mem_cons] at h
    simp [draft, pending_of_mem, h]
  | http e =>
    simp only [members, List.forall_mem_cons] at h
    simp [draft, pending_of_mem, h]

theorem build_draft (tr : Transport) : build tr.kind (tr.draft []) = .ok tr := by
  cases tr <;> simp [draft, build, kind, given, bind, Except.bind, pure, Except.pure]

theorem leafField_step {name : String} {field : Draft → Option α} {shape : Shape α}
    {set : α → Draft → Draft}
    {d d' : Draft} {v : Json} {a : α} (hshape : shape v = .ok a) (hfresh : field d = none)
    (hset : set a d = d') :
    (leafField name field shape set).isRead d = false ∧
    (leafField name field shape set).read d v = .ok d' := by
  refine ⟨Option.isSome_eq_false_iff.2 (Option.isNone_iff_eq_none.2 hfresh), ?_⟩
  simp only [leafField, hshape, bind, Except.bind, pure, Except.pure, hset]

theorem draft_step {m : String × Json} {keys : List String} (hm : m ∈ tr.members)
    (hkey : m.1 ∉ keys) :
    ∃ field, (fields tr.kind).find? (·.name == m.1) = some field ∧
      field.isRead (tr.draft (m.1 :: keys)) = false ∧
      field.read (tr.draft (m.1 :: keys)) m.2 = .ok (tr.draft keys) := by
  cases tr with
  | stdio => cases hm
  | tcp e =>
    simp only [members, List.mem_cons, List.not_mem_nil, or_false] at hm
    rcases hm with rfl | rfl
    · refine ⟨portField, rfl, leafField_step (Shape.uint16_ofNat e.port) (by simp [draft]) ?_⟩
      simp [draft, pending_of_not_mem hkey, pending_cons_of_ne]
    · refine ⟨hostField, rfl, leafField_step (Shape.string_string e.host) (by simp [draft]) ?_⟩
      simp [draft, pending_of_not_mem hkey, pending_cons_of_ne]
  | http e =>
    simp only [members, List.mem_cons, List.not_mem_nil, or_false] at hm
    rcases hm with rfl | rfl | rfl | rfl
    · refine ⟨portField, rfl, leafField_step (Shape.uint16_ofNat e.port) (by simp [draft]) ?_⟩
      simp [draft, pending_of_not_mem hkey, pending_cons_of_ne]
    · refine ⟨hostField, rfl, leafField_step (Shape.string_string e.host) (by simp [draft]) ?_⟩
      simp [draft, pending_of_not_mem hkey, pending_cons_of_ne]
    · refine ⟨rpcPathField, rfl, leafField_step (Shape.string_string e.rpcPath)
        (by simp [draft]) ?_⟩
      simp [draft, pending_of_not_mem hkey, pending_cons_of_ne]
    · refine ⟨enableCorsField, rfl, leafField_step (Shape.bool_bool e.enableCors)
        (by simp [draft]) ?_⟩
      simp [draft, pending_of_not_mem hkey, pending_cons_of_ne]

theorem ofMembers_of_perm (h : ms.Perm tr.members) : ofMembers tr.kind ms = .ok tr := by
  have hstart : tr.draft (ms.map (·.1)) = {} :=
    draft_of_keys fun m hm => List.mem_map_of_mem (h.mem_iff.2 hm)
  have hfill := fillMembers_pending (fun m hm keys hkey => draft_step (h.mem_iff.1 hm) hkey)
    ((h.map _).nodup_iff.2 tr.nodup_keys_members)
  rw [hstart] at hfill
  simp only [ofMembers, hfill, bind, Except.bind]
  exact build_draft tr

theorem memberStep_tag (tr : Transport) (others : List (String × Json)) :
    MemberStep Renders fuel (readTaggedMember fuel depth) tr.tag ⟨none, others⟩
      ⟨some tr.kind, others⟩ := by
  have hshape : TransportKind.shape (.string tr.kind.name) = .ok tr.kind :=
    Shape.choiceOfName_name tr.kind
  intro before after t rest hbefore hafter ht hlength hrest
  simp [readTaggedMember, tag, readColon_append hbefore,
    readShape_of_renders hshape rfl hafter ht hlength hrest, bind, Except.bind, pure, Except.pure]

theorem memberStep_other {m : String × Json} (hm : m ∈ tr.members) (state : Tagged) :
    MemberStep Renders fuel (readTaggedMember fuel depth) m state { state with others :=
  m :: state.others } := by
  intro before after t rest hbefore hafter ht hlength hrest
  have hvalue : readValue fuel depth (t ++ rest) = .ok (m.2, rest) :=
    readValue_leaf ht (depth_of_mem_members hm) hlength hrest
  simp only [readTaggedMember, ne_type_of_mem_members hm, if_false, readColon_append hbefore,
    readValue_of_isSpace hafter, hvalue, bind, Except.bind, pure, Except.pure]

theorem memberRun_others (fuel depth : Nat) (h : ∀ m ∈ ms, m ∈ tr.members) (state : Tagged) :
    MemberRun Renders fuel (readTaggedMember fuel depth) ms state
      { state with others := ms.reverse ++ state.others } := by
  induction ms generalizing state with
  | nil => exact .nil state
  | cons m ms ih =>
    rw [List.forall_mem_cons] at h
    have hrest := ih h.2 { state with others := m :: state.others }
    rw [List.reverse_cons, List.append_assoc]
    exact .cons (memberStep_other h.1 state) hrest

theorem memberRun_tagged (fuel depth : Nat) (h : ms.Perm (tr.tag :: tr.members)) :
    ∃ others : List (String × Json), others.Perm tr.members ∧
      MemberRun Renders fuel (readTaggedMember fuel depth) ms {}
        ⟨some tr.kind, others.reverse⟩ := by
  obtain ⟨before, after, rfl⟩ := List.append_of_mem (h.mem_iff.2 List.mem_cons_self)
  have hothers : (before ++ after).Perm tr.members := (List.perm_middle.symm.trans h).cons_inv
  have hmem : ∀ m ∈ before ++ after, m ∈ tr.members := fun m hm => hothers.mem_iff.1 hm
  rw [List.forall_mem_append] at hmem
  refine ⟨before ++ after, hothers, ?_⟩
  have hrun := (memberRun_others fuel depth hmem.1 {}).append
    (.cons (memberStep_tag tr _) (memberRun_others fuel depth hmem.2 _))
  rw [List.reverse_append]
  simpa using hrun

theorem read_of_renders (hw : IsSpace w) (h : Renders tr.document t)
    (hfuel : t.length < fuel) (rest : List Char) :
    read fuel depth (w ++ (t ++ rest)) = .ok (.ok tr, rest) := by
  rw [document_eq] at h
  obtain ⟨order, u, rfl, horder, hparts⟩ := h.object_parts
  have hlength : u.length ≤ fuel := Nat.le_of_lt (Nat.lt_of_succ_lt hfuel)
  obtain ⟨others, hothers, hrun⟩ := memberRun_tagged fuel depth horder
  have hmembers := readMembers_parts hparts hrun hlength hlength rest
  rw [read, skipSpace_append hw, List.cons_append, skipSpace_cons (by decide)]
  simp only [if_true, hmembers, List.reverse_reverse, ofMembers_of_perm hothers, bind, Except.bind]

example :
    parse "\x7b\"port\":3000,\"host\":\"127.0.0.1\",\"type\":\"tcp\"\x7d".toList =
      .ok (.tcp defaultTcp) := by
  rfl

end Transport

namespace Settings

theorem readRecord_serverShape (s : Settings) (hw : IsSpace w)
    (h : Renders (.object [("name", .string s.name), ("version", .string s.version)]) t)
    (hfuel : t.length < fuel)
    (rest : List Char) : readRecord (serverShape fuel) fuel (w ++ (t ++ rest)) =
      .ok ((s.name, s.version), rest) :=
  readRecord_pairShape (by simp) rfl rfl (Shape.string_string s.name)
    (Shape.string_string s.version) rfl hw h hfuel
    rest

theorem readRecord_loggingShape (s : Settings) (hw : IsSpace w)
    (h : Renders (.object [("level", .string s.logLevel),
      ("with_timestamps", .bool s.logTimestamps)]) t)
    (hfuel : t.length < fuel) (rest : List Char) :
    readRecord (loggingShape fuel) fuel (w ++ (t ++ rest)) =
      .ok ((s.logLevel, s.logTimestamps), rest) :=
  readRecord_pairShape (by simp) rfl rfl (Shape.string_string s.logLevel)
    (Shape.bool_bool s.logTimestamps) rfl hw h
    hfuel rest

theorem readRecord_filesShape (p : FilePolicy) (hw : IsSpace w) (h : Renders p.document t)
    (hfuel : t.length < fuel)
    (rest : List Char) : readRecord (filesShape fuel) fuel (w ++ (t ++ rest)) = .ok (p, rest) := by
  have hleaf : (p.rootPath.elim Json.null .string).depth = 0 := by cases p.rootPath <;> rfl
  rw [FilePolicy.document] at h
  exact readRecord_pairShape (by simp) hleaf rfl (Shape.nullable_text _ p.rootPath)
    (Shape.bool_bool p.allowSymlinks) rfl hw h hfuel rest

theorem readRecord_limitsShape (l : Limits) (hw : IsSpace w) (h : Renders l.document t)
    (hfuel : t.length < fuel)
    (rest : List Char) : readRecord (limitsShape fuel) fuel (w ++ (t ++ rest)) = .ok (l, rest) := by
  rw [Limits.document] at h
  exact readRecord_pairShape (by simp) rfl rfl (Shape.size_ofUInt64 l.maxBatchSize)
    (Shape.uint64_ofUInt64 l.maxFileSize) rfl hw h hfuel rest

theorem step_groupField {name : String} {group : Draft → Option α} {set : α → Draft → Draft}
    {shape : RecordShape σ α} {v : Json} {a : α} (d : Draft)
    (hread : ∀ w t rest, IsSpace w → Renders v t → t.length < fuel →
      readRecord shape fuel (w ++ (t ++ rest)) = .ok (a, rest)) :
    (groupField name group set fuel shape).Step fuel v d (set a d) := by
  intro w t rest hw ht hlength _
  simp only [groupField, hread w t rest hw ht hlength, bind, Except.bind, pure, Except.pure]

theorem step_transportField (tr : Transport) (d : Draft) :
    (transportField fuel).Step fuel tr.document d { d with transport := some tr } := by
  intro w t rest hw ht hlength _
  simp only [transportField, Transport.read_of_renders hw ht hlength,
    bind, Except.bind, pure, Except.pure, Except.map]

def draft (s : Settings) (keys : List String) : Draft where
  server := pending "server" (s.name, s.version) keys
  logging := pending "logging" (s.logLevel, s.logTimestamps) keys
  transport := pending "transport" s.transport keys
  files := pending "security" s.files keys
  limits := pending "calculator" s.limits keys

def members (s : Settings) : List (String × Json) := [
  ("server", .object [("name", .string s.name), ("version", .string s.version)]),
  ("logging", .object [("level", .string s.logLevel), ("with_timestamps", .bool s.logTimestamps)]),
  ("transport", s.transport.document),
  ("security", s.files.document),
  ("calculator", s.limits.document)]

theorem memberStep_draft {s : Settings} {m : String × Json} {keys : List String}
    (hm : m ∈ s.members) (hkey : m.1 ∉ keys) :
    MemberStep Renders fuel (readField (shape fuel).fields) m (s.draft (m.1 :: keys))
    (s.draft keys) := by
  simp only [members, List.mem_cons, List.not_mem_nil, or_false] at hm
  rcases hm with rfl | rfl | rfl | rfl | rfl
  · refine memberStep_readField rfl (by simp [groupField, draft]) ?_
    convert step_groupField _ fun w t rest hw ht hlength =>
      readRecord_serverShape s hw ht hlength rest using 1
    simp [draft, pending_of_not_mem hkey, pending_cons_of_ne]
  · refine memberStep_readField rfl (by simp [groupField, draft]) ?_
    convert step_groupField _ fun w t rest hw ht hlength =>
      readRecord_loggingShape s hw ht hlength rest using 1
    simp [draft, pending_of_not_mem hkey, pending_cons_of_ne]
  · refine memberStep_readField rfl (by simp [transportField, draft]) ?_
    convert step_transportField s.transport _ using 1
    simp [draft, pending_of_not_mem hkey, pending_cons_of_ne]
  · refine memberStep_readField rfl (by simp [groupField, draft]) ?_
    convert step_groupField _ fun w t rest hw ht hlength =>
      readRecord_filesShape s.files hw ht hlength rest using 1
    simp [draft, pending_of_not_mem hkey, pending_cons_of_ne]
  · refine memberStep_readField rfl (by simp [groupField, draft]) ?_
    convert step_groupField _ fun w t rest hw ht hlength =>
      readRecord_limitsShape s.limits hw ht hlength rest using 1
    simp [draft, pending_of_not_mem hkey, pending_cons_of_ne]

theorem filledBy_members (s : Settings) (fuel : Nat) :
    (shape fuel).FilledBy fuel s.members s.draft where
  nodup_keys := by simp [members]
  start := by
    intro keys hkeys
    simp only [members, List.forall_mem_cons] at hkeys
    simp [draft, shape, pending_of_mem, hkeys]
  step := fun _ hm _ hkey => memberStep_draft hm hkey

theorem build_draft (s : Settings) : build (s.draft []) = .ok s := by
  simp [draft, build, given, bind, Except.bind, pure, Except.pure]

theorem finiteFloats_document (s : Settings) : FiniteFloats s.document := by
  have hstring : ∀ a : String, FiniteFloats (.string a) := by rintro a x ⟨⟩
  have hbool : ∀ b : Bool, FiniteFloats (.bool b) := by rintro b x ⟨⟩
  have hwhole : ∀ n : Whole, FiniteFloats (.whole n) := by rintro n x ⟨⟩
  have hroot : FiniteFloats (s.files.rootPath.elim .null .string) := by
    cases s.files.rootPath <;> rintro x ⟨⟩
  have htransport : FiniteFloats s.transport.document := by
    cases s.transport <;> exact finiteFloats_object (by simp [hstring, hbool, hwhole])
  have hfiles : FiniteFloats s.files.document := finiteFloats_object (by simp [hroot, hbool])
  have hlimits : FiniteFloats s.limits.document := finiteFloats_object (by simp [hwhole])
  refine finiteFloats_object ?_
  simp only [List.forall_mem_cons, htransport, hfiles, hlimits]
  simp [finiteFloats_object, hstring, hbool]

theorem rendersDocument_documentText (s : Settings) :
    RendersDocument s.document s.documentText.toList := by
  have hrenders := renders_write isFaithful_plain s.document s.finiteFloats_document
  rw [documentText, Json.text, String.toList_ofList]
  simpa using RendersDocument.document isSpace_nil hrenders isSpace_nil

theorem parse_of_renders {s : Settings} (h : RendersDocument s.document t) : parse t = .ok s := by
  obtain ⟨hbefore, ht, hafter⟩ := h
  next before t after =>
  have hread := readRecord_of_renders (s.filledBy_members ((before ++ (t ++ after)).length + 1))
    s.build_draft
    hbefore ht (by simp only [List.length_append]; omega) after
  simp only [parse, hread, readEnd_of_isSpace hafter, bind, Except.bind, pure, Except.pure]

/-- Settings are read back from their text, and from every other rendering of their document: with
any space between the tokens, with the members of its objects in any order, and with any spelling of
its strings and numbers. -/
theorem parse_renderings (s : Settings) :
    RendersDocument s.document s.documentText.toList ∧ parse s.documentText.toList = .ok s ∧
      ∀ t, RendersDocument s.document t → parse t = .ok s :=
  ⟨s.rendersDocument_documentText, parse_of_renders s.rendersDocument_documentText,
    fun _ h => parse_of_renders h⟩

end Settings

end Calculator
