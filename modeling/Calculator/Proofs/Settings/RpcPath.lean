import Calculator.Proofs.Json.RecordPlaces
import Calculator.Proofs.Settings.Transport

/-!
# The path of an endpoint

The default path begins with a slash, and so does every path that the environment gives, which is
put in order first. A document may give any path, and an endpoint takes it as it stands there.
-/

namespace Calculator

open Json

variable {fuel depth : Nat} {text cs rest : List Char} {v w : Json} {e : HttpEndpoint}
  {t : Transport}

def StartsWithSlash (path : String) : Prop :=
  path.toList.head? = some '/'

instance (path : String) : Decidable (StartsWithSlash path) :=
  inferInstanceAs (Decidable (path.toList.head? = some '/'))

namespace Transport

variable {d d' : Draft} {kind : TransportKind}

/-- What a document gives as the path: the member of that name, or the element that stands for
it. -/
def givenRpcPath : Json → Option Json
  | .array items => items[3]?
  | v => v.get? "rpc_path"

/-- An endpoint takes its path from a document as it stands there, and the default if there is
none. -/
def TakesPath (e : HttpEndpoint) (v : Json) : Prop :=
  ∃ path : Option String, givenRpcPath v = path.map .string ∧ e.rpcPath = path.getD defaultRpcPath

theorem TakesPath.startsWithSlash_iff (h : TakesPath e v) :
    StartsWithSlash e.rpcPath ↔ ∀ path, givenRpcPath v = some (.string path) →
    StartsWithSlash path := by
  obtain ⟨path, hgiven, hpath⟩ := h
  rw [hgiven, hpath]
  cases path with
  | none => simp [show StartsWithSlash defaultRpcPath by decide]
  | some path => simp

theorem build_eq_http (h : build kind d = .ok (.http e)) :
    kind = .http ∧ e.rpcPath = d.rpcPath.getD defaultRpcPath := by
  cases kind with
  | stdio => cases h
  | tcp =>
    obtain ⟨port, -, h⟩ := bind_eq_ok_iff.1 h
    cases h
  | http =>
    obtain ⟨port, -, h⟩ := bind_eq_ok_iff.1 h
    cases h
    exact ⟨rfl, rfl⟩

theorem string_eq_ok {expected s : String} (h : Shape.text expected v = .ok s) : v = .string s := by
  unfold Shape.text at h
  split at h <;> cases h
  rfl

theorem rpcPath_of_readField {field : ValueField Draft} (hfield : field ∈ fields .http)
    (hfresh : field.isRead d = false) (h : field.read d w = .ok d') (v : Json) :
    d'.rpcPath.map Json.string = some v ↔ (field.name = "rpc_path" ∧ w = v) ∨
    d.rpcPath.map Json.string = some v := by
  simp only [fields, List.mem_cons, List.not_mem_nil, or_false] at hfield
  rcases hfield with rfl | rfl | rfl | rfl <;> obtain ⟨a, ha, h⟩ := bind_eq_ok_iff.1 h <;> cases h
  · simp [portField, leafField]
  · simp [hostField, leafField]
  · have hnone : d.rpcPath = none := by simpa [rpcPathField, leafField] using hfresh
    rw [string_eq_ok ha]
    simp [rpcPathField, leafField, hnone]
  · simp [enableCorsField, leafField]

theorem rpcPath_of_fillMembers {members : List (String × Json)}
    (h : fillMembers (fields .http) members d = .ok d') (v : Json) :
    d'.rpcPath.map Json.string = some v ↔ ("rpc_path", v) ∈ members ∨
    d.rpcPath.map Json.string = some v := by
  induction members generalizing d with
  | nil =>
    cases h
    simp
  | cons m members ih =>
    obtain ⟨key, w⟩ := m
    rw [fillMembers] at h
    split at h
    · next hnone =>
      have hkey : "rpc_path" ≠ key := by
        simpa [rpcPathField, leafField] using List.find?_eq_none.1 hnone rpcPathField
          (by simp [fields])
      rw [ih h, List.mem_cons, Prod.mk.injEq]
      simp [hkey]
    · next field hfind =>
      split at h
      · cases h
      next hfresh =>
      obtain ⟨d₁, hread, h⟩ := bind_eq_ok_iff.1 h
      have hname : field.name = key := by simpa using List.find?_some hfind
      rw [ih h, rpcPath_of_readField (List.mem_of_find?_eq_some hfind)
        (by simpa using hfresh) hread, List.mem_cons,
        Prod.mk.injEq, hname, or_left_comm, or_assoc, eq_comm (a := key), eq_comm (a := w)]

theorem rpcPath_of_fillElements {elements : List Json}
    (h : fillElements (fields .http) elements {} = .ok d) :
    d.rpcPath.map Json.string = elements[2]? := by
  cases elements with
  | nil =>
    cases h
    rfl
  | cons port elements =>
  obtain ⟨_, hport, h⟩ := bind_eq_ok_iff.1 h
  obtain ⟨_, -, hport⟩ := bind_eq_ok_iff.1 hport
  cases hport
  cases elements with
  | nil =>
    cases h
    rfl
  | cons host elements =>
  obtain ⟨_, hhost, h⟩ := bind_eq_ok_iff.1 h
  obtain ⟨_, -, hhost⟩ := bind_eq_ok_iff.1 hhost
  cases hhost
  cases elements with
  | nil =>
    cases h
    rfl
  | cons path elements =>
  obtain ⟨_, hpath, h⟩ := bind_eq_ok_iff.1 h
  obtain ⟨s, hs, hpath⟩ := bind_eq_ok_iff.1 hpath
  cases hpath
  rw [string_eq_ok hs]
  cases elements with
  | nil =>
    cases h
    rfl
  | cons cors elements =>
  obtain ⟨_, hcors, h⟩ := bind_eq_ok_iff.1 h
  obtain ⟨_, -, hcors⟩ := bind_eq_ok_iff.1 hcors
  cases hcors
  cases h
  rfl

def SameMembers (state : Tagged) (ms : List (String × Json)) : Prop :=
  (Json.object ms).get? "rpc_path" = (Json.object state.others).get? "rpc_path"

def SameElements (state : Option TransportKind × List Json) (items : List Json) : Prop :=
  match state.1 with
  | none => items = []
  | some _ => ∃ tag, items = state.2 ++ [tag]

theorem readValue_of_kind {kind : TransportKind}
    (h : readShape TransportKind.shape fuel cs = .ok (kind, rest)) :
    ∃ v, readValue fuel depth cs = .ok (v, rest) := by
  obtain ⟨v, hv, -⟩ := readValue_of_readShape depth
    (by simp [TransportKind.shape, Shape.unexpected])
    (by simp [TransportKind.shape, Shape.unexpected]) h
  exact ⟨v, hv⟩

theorem sameMembers_member {state state' : Tagged} {ms : List (String × Json)} {key : String}
    (hsame : SameMembers state ms)
    (h : readTaggedMember fuel depth state key cs = .ok (state', rest)) :
    ∃ ms', readEntry (readValue fuel depth) ms key cs = .ok (ms', rest) ∧
    SameMembers state' ms' := by
  unfold readTaggedMember at h
  split at h
  · next hkey =>
    split at h
    · cases h
    · obtain ⟨⟨_, cs₁⟩, hcolon, h⟩ := bind_eq_ok_iff.1 h
      obtain ⟨⟨kind, cs₂⟩, hkind, h⟩ := bind_eq_ok_iff.1 h
      cases h
      obtain ⟨v, hv⟩ := readValue_of_kind hkind
      refine ⟨put key v ms, bind_eq_ok_iff.2 ⟨_, hcolon, bind_eq_ok_iff.2 ⟨_, hv, rfl⟩⟩, ?_⟩
      rw [SameMembers, get?_put, if_neg (by rw [hkey]; decide)]
      exact hsame
  · obtain ⟨⟨_, cs₁⟩, hcolon, h⟩ := bind_eq_ok_iff.1 h
    obtain ⟨⟨v, cs₂⟩, hv, h⟩ := bind_eq_ok_iff.1 h
    cases h
    refine ⟨put key v ms, bind_eq_ok_iff.2 ⟨_, hcolon, bind_eq_ok_iff.2 ⟨_, hv, rfl⟩⟩, ?_⟩
    rw [SameMembers, get?_put, get?_cons]
    split
    · rfl
    · exact hsame

theorem sameElements_element {state state' : Option TransportKind × List Json} {items : List Json}
    (hsame : SameElements state items)
    (h : readTaggedElement fuel depth state cs = .ok (state', rest)) :
    ∃ items', readItem (readValue fuel depth) items cs = .ok (items', rest) ∧
    SameElements state' items' := by
  obtain ⟨_ | kind, others⟩ := state
  · obtain ⟨⟨kind, cs'⟩, hkind, h⟩ := bind_eq_ok_iff.1 h
    cases h
    obtain ⟨v, hv⟩ := readValue_of_kind hkind
    cases hsame
    exact ⟨[v], bind_eq_ok_iff.2 ⟨_, hv, rfl⟩, v, rfl⟩
  · obtain ⟨⟨v, cs'⟩, hv, h⟩ := bind_eq_ok_iff.1 h
    cases h
    obtain ⟨tag, rfl⟩ := hsame
    exact ⟨_, bind_eq_ok_iff.2 ⟨_, hv, rfl⟩, tag, rfl⟩

theorem takesPath_of_members {state : Tagged} {ms : List (String × Json)}
    (hsame : SameMembers state ms)
    (h : ofMembers kind state.others.reverse = .ok (.http e)) : TakesPath e (.object ms) := by
  obtain ⟨d, hfill, hbuild⟩ := bind_eq_ok_iff.1 h
  obtain ⟨rfl, hpath⟩ := build_eq_http hbuild
  refine ⟨d.rpcPath, ?_, hpath⟩
  have hmem : ∀ v, d.rpcPath.map Json.string = some v ↔ ("rpc_path", v) ∈ state.others := by
    intro v
    rw [rpcPath_of_fillMembers hfill v, List.mem_reverse]
    simp
  have hdocument : givenRpcPath (.object ms) = (Json.object state.others).get? "rpc_path" := hsame
  rw [hdocument, get?]
  cases hfind : state.others.find? (·.1 == "rpc_path") with
  | none =>
    cases hgiven : d.rpcPath with
    | none => rfl
    | some path =>
      have hmember := (hmem (.string path)).1 (by rw [hgiven]; rfl)
      exact absurd (beq_self_eq_true "rpc_path") (List.find?_eq_none.1 hfind _ hmember)
  | some m =>
    have hkey : m.1 = "rpc_path" := by simpa using List.find?_some hfind
    exact ((hmem m.2).2 (hkey ▸ List.mem_of_find?_eq_some hfind)).symm

theorem takesPath_of_elements {others items : List Json}
    (hsame : SameElements (some kind, others) items)
    (h : ofElements kind others.reverse = .ok (.http e)) : TakesPath e (.array items.reverse) := by
  obtain ⟨tag, rfl⟩ := hsame
  obtain ⟨d, hfill, h⟩ := bind_eq_ok_iff.1 h
  split at h
  · cases h
  split at h
  · cases h
  obtain ⟨rfl, hpath⟩ := build_eq_http h
  refine ⟨d.rpcPath, ?_, hpath⟩
  rw [rpcPath_of_fillElements hfill, givenRpcPath, List.reverse_append]
  rfl

theorem exists_readValue_of_read (h : Transport.read fuel depth cs = .ok (.ok t, rest)) :
    ∃ v, readValue fuel (depth + 1) cs = .ok (v, rest) ∧ ∀ e, t = .http e → TakesPath e v := by
  unfold Transport.read at h
  split at h
  · cases h
  next c cs' hspace =>
  rw [readValue]
  simp only [hspace]
  split at h
  · next hbrace =>
    obtain ⟨⟨state, rest'⟩, hmembers, h⟩ := bind_eq_ok_iff.1 h
    obtain ⟨ms, hms, hsame⟩ := readMembers_simulation (fun _ _ _ _ _ _ => sameMembers_member)
      (show SameMembers {} [] from rfl) hmembers
    dsimp only at h
    split at h
    · cases h
    next kind hkind =>
    obtain ⟨hread, rfl⟩ := Prod.mk.inj (Except.ok.inj h)
    refine ⟨.object ms, ?_, ?_⟩
    · rw [if_neg (by rw [hbrace]; decide), if_pos hbrace]
      exact bind_eq_ok_iff.2 ⟨_, hms, rfl⟩
    · rintro e rfl
      exact takesPath_of_members hsame hread
  split at h
  · next hbracket =>
    obtain ⟨⟨⟨kind?, others⟩, rest'⟩, helements, h⟩ := bind_eq_ok_iff.1 h
    obtain ⟨items, hitems, hsame⟩ := readItems_simulation (fun _ _ _ _ _ => sameElements_element)
      (show SameElements (none, []) [] from rfl) helements
    dsimp only at h
    split at h
    · cases h
    next kind =>
    obtain ⟨hread, rfl⟩ := Prod.mk.inj (Except.ok.inj h)
    refine ⟨.array items.reverse, ?_, ?_⟩
    · rw [if_pos hbracket]
      exact bind_eq_ok_iff.2 ⟨_, hitems, rfl⟩
    · rintro e rfl
      exact takesPath_of_elements hsame hread
  · obtain ⟨⟨t, rest'⟩, hshape, h⟩ := bind_eq_ok_iff.1 h
    exact absurd hshape (readShape_unexpected _ _)

theorem exists_parse_of_parse (h : Transport.parse text = .ok (.http e)) :
    ∃ v, Json.parse text = .ok v ∧ TakesPath e v := by
  obtain ⟨⟨result, rest⟩, hread, h⟩ := bind_eq_ok_iff.1 h
  cases result with
  | error m => cases h
  | ok t =>
    obtain ⟨_, hend, h⟩ := bind_eq_ok_iff.1 h
    cases h
    obtain ⟨v, hv, htakes⟩ := exists_readValue_of_read hread
    exact ⟨v, bind_eq_ok_iff.2 ⟨_, hv, bind_eq_ok_iff.2 ⟨_, hend, rfl⟩⟩, htakes e rfl⟩

end Transport

namespace Settings

variable {s : Settings}

/-- The value of the transport begins here in a text of settings: behind the colon of the member of
that name, or in its turn in a list. -/
def TransportAt (text part : List Char) : Prop :=
  ∃ s places rest, readRecord (shape (text.length + 1)).noted (text.length + 1) text =
    .ok ((s, places), rest) ∧
    places.find? (·.1 == "transport") = some ("transport", part) ∧ part <:+ text

def NotesTransport (text : List Char) (noted : Draft × Places) : Prop :=
  ∀ t, noted.1.transport = some t → ∃ part rest,
    noted.2.find? (·.1 == "transport") = some ("transport", part) ∧ part <:+ text ∧
      Transport.read (text.length + 1) (depthLimit - 2) part = .ok (.ok t, rest)

theorem keeps_pairShape {α β γ : Type} {name : String} {first : String × Shape α}
    {second : String × Shape β}
    {build : Option α → Option β → Except Mismatch γ} {field : RecordField (Option α × Option β)}
    (hfield : field ∈ (pairShape name fuel first second build).fields) :
      field.Keeps text fun _ => True := by
  simp only [pairShape, List.mem_cons, List.not_mem_nil, or_false] at hfield
  rcases hfield with rfl | rfl <;>
  · intro _ cs _ rest _ _ h
    obtain ⟨⟨a, cs'⟩, hread, h⟩ := bind_eq_ok_iff.1 h
    cases h
    exact ⟨trivial, leavesRest_readShape _ _ hread⟩

theorem keeps_groupField {σ α : Type} {name : String} {group : Draft → Option α}
    {set : α → Draft → Draft} {shape : RecordShape σ α} (hname : name ≠ "transport")
    (hset : ∀ a d, (set a d).transport = d.transport)
    (hshape : ∀ field ∈ shape.fields, field.Keeps text fun _ => True) :
    (groupField name group set fuel shape).noted.Keeps text (NotesTransport text) := by
  rintro ⟨d, places⟩ cs d' rest hd hcs h
  obtain ⟨⟨result, cs''⟩, hread, h⟩ := bind_eq_ok_iff.1 h
  obtain ⟨⟨a, cs'⟩, hread, hresult⟩ := bind_eq_ok_iff.1 hread
  cases hresult
  cases h
  refine ⟨fun t ht => ?_, (readRecord_rest_invariant (I := fun _ => True)
    hshape trivial hcs hread).2⟩
  have hother : (name == "transport") = false := beq_eq_false_iff_ne.2 hname
  obtain ⟨part, rest', hpart, htransport⟩ := hd t ((hset a d).symm.trans ht)
  refine ⟨part, rest', ?_, htransport⟩
  rw [← hpart, List.find?_cons]
  simp only [groupField, hother]

theorem keeps_transportField :
    (transportField (text.length + 1)).noted.Keeps text (NotesTransport text) := by
  rintro ⟨d, places⟩ cs d' rest _ hcs h
  obtain ⟨⟨result, cs''⟩, hread, h⟩ := bind_eq_ok_iff.1 h
  obtain ⟨⟨t?, cs'⟩, hread, hresult⟩ := bind_eq_ok_iff.1 hread
  cases t? with
  | error m =>
    cases hresult
    cases h
  | ok t =>
    cases hresult
    cases h
    obtain ⟨v, hv, -⟩ := Transport.exists_readValue_of_read hread
    refine ⟨?_, leavesRest_readValue _ _ hv⟩
    rintro t' ⟨⟩
    exact ⟨cs, rest, rfl, hcs, hread⟩

theorem transport_of_build {d : Draft} (h : build d = .ok s) : d.transport = some s.transport := by
  obtain ⟨_, -, h⟩ := bind_eq_ok_iff.1 h
  obtain ⟨_, -, h⟩ := bind_eq_ok_iff.1 h
  obtain ⟨t, ht, h⟩ := bind_eq_ok_iff.1 h
  obtain ⟨_, -, h⟩ := bind_eq_ok_iff.1 h
  obtain ⟨_, -, h⟩ := bind_eq_ok_iff.1 h
  cases h
  unfold given at ht
  split at ht <;> cases ht
  assumption

theorem exists_read_of_parse (h : Settings.parse text = .ok s) : ∃ part rest,
    TransportAt text part ∧
    Transport.read (text.length + 1) (depthLimit - 2) part = .ok (.ok s.transport, rest) := by
  obtain ⟨⟨s, rest⟩, hread, h⟩ := bind_eq_ok_iff.1 h
  obtain ⟨_, -, h⟩ := bind_eq_ok_iff.1 h
  cases h
  obtain ⟨places, hnoted⟩ := readRecord_noted hread
  have hfields :
      ∀ field ∈ (shape (text.length + 1)).noted.fields, field.Keeps text (NotesTransport text) := by
    intro field hfield
    simp only [RecordShape.noted, shape, List.map_cons, List.map_nil,
      List.mem_cons, List.not_mem_nil, or_false]
      at hfield
    rcases hfield with rfl | rfl | rfl | rfl | rfl
    · exact keeps_groupField (by decide) (fun _ _ => rfl) fun _ => keeps_pairShape
    · exact keeps_groupField (by decide) (fun _ _ => rfl) fun _ => keeps_pairShape
    · exact keeps_transportField
    · exact keeps_groupField (by decide) (fun _ _ => rfl) fun _ => keeps_pairShape
    · exact keeps_groupField (by decide) (fun _ _ => rfl) fun _ => keeps_pairShape
  have hstart : NotesTransport text (shape (text.length + 1)).noted.start :=
    fun tr h => absurd h (Option.some_ne_none tr).symm
  obtain ⟨⟨⟨d, places'⟩, hd, hbuild⟩, -⟩ :=
    readRecord_rest_invariant hfields hstart List.suffix_rfl hnoted
  obtain ⟨s', hs', hbuild⟩ := bind_eq_ok_iff.1 hbuild
  cases hbuild
  obtain ⟨part, rest', hpart, hsuffix, htransport⟩ := hd _ (transport_of_build hs')
  exact ⟨part, rest', ⟨_, _, _, hnoted, hpart, hsuffix⟩, htransport⟩

end Settings

/-- The path of an endpoint begins with a slash if it is the default or comes from the environment.
One that comes from a document begins with a slash if and only if the document gives no other. -/
theorem startsWithSlash_rpcPath (env : Environment) (text : List Char) (e : HttpEndpoint) :
    StartsWithSlash Transport.defaultHttp.rpcPath ∧
    ((Environment.settings env).transport = .http e → StartsWithSlash e.rpcPath) ∧
    (Transport.parse text = .ok (.http e) → ∃ v, Json.parse text = .ok v ∧ Transport.TakesPath e v ∧
      (StartsWithSlash e.rpcPath ↔
        ∀ path, Transport.givenRpcPath v = some (.string path) → StartsWithSlash path)) ∧
    ∀ s, Settings.parse text = .ok s → s.transport = .http e → ∃ part rest v,
      Settings.TransportAt text part ∧
      readValue (text.length + 1) (depthLimit - 1) part = .ok (v, rest) ∧ Transport.TakesPath e v ∧
      (StartsWithSlash e.rpcPath ↔
        ∀ path, Transport.givenRpcPath v = some (.string path) → StartsWithSlash path) := by
  refine ⟨by decide, fun h => ?_, fun h => ?_, fun s h hs => ?_⟩
  · have hreadable : (Transport.http e).IsReadable := h ▸ Environment.isReadable_transport env
    exact hreadable.slash
  · obtain ⟨v, hv, htakes⟩ := Transport.exists_parse_of_parse h
    exact ⟨v, hv, htakes, htakes.startsWithSlash_iff⟩
  · obtain ⟨part, rest, hpart, hread⟩ := Settings.exists_read_of_parse h
    obtain ⟨v, hv, htakes⟩ := Transport.exists_readValue_of_read hread
    exact ⟨part, rest, v, hpart, hv, htakes e hs, (htakes e hs).startsWithSlash_iff⟩

theorem rpcPath_without_slash : ∃ e,
    Transport.parse "\x7b\"type\":\"http\",\"port\":8080,\"rpc_path\":\"mcp\"\x7d".toList =
      .ok (.http e) ∧
    ¬StartsWithSlash e.rpcPath :=
  ⟨⟨8080, "127.0.0.1", "mcp", true⟩, rfl, by decide⟩

end Calculator
