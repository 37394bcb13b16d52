import Calculator.Proofs.Rpc.Incoming
import Calculator.Proofs.Server.Response
import Calculator.Server.Stream

/-!
# Runs of talks

The stages of a talk are passed in one order. A client is ready exactly if it has connected and then
said so, with nothing but messages of other protocols in between, and since then every message could
be read. From there on every request has one response, in the order of the requests and under their
ids, up to a message that cannot be read. A tool's answer is that of the web server.
-/

namespace Calculator.Server.Stream

open Rpc

variable {settings : Settings} {tree : FileTree} {stage : Stage} {incoming : Incoming}
  {message id : Json} {messages messages' opening rest : List Json} {revision method name : String}
    {given : Option Json}
  {arguments : Json} {reaction : Stage × Option Response}

theorem agreedRevision_le (revision : String) :
    agreedRevision revision ≤ revision ∧ agreedRevision revision ≤ currentRevision := by
  unfold agreedRevision
  split_ifs with h
  · exact ⟨String.le_refl _, fun hlt => String.lt_asymm h hlt⟩
  · exact ⟨h, String.le_refl _⟩

def Stage.rank : Stage → Nat
  | fresh => 0
  | welcomed => 1
  | ready => 2
  | closed => 3

/-- What a message does to a talk. -/
inductive Reacts (settings : Settings) (tree : FileTree) : Stage → Incoming →
    Stage × Option Response → Prop
  | passed {stage : Stage} {incoming : Incoming} (h : stage = .closed ∨ incoming = .foreign) :
    Reacts settings tree stage incoming (stage, none)
  | welcomed (id : Json) (revision : String) : Reacts settings tree .fresh
      (.request id (.connect revision))
      (.welcomed, some (.success (some id) (welcome settings (agreedRevision revision))))
  | confirmed : Reacts settings tree .welcomed (.notification initializedName) (.ready, none)
  | answered (id : Json) (call : Call) :
    Reacts settings tree .ready (.request id call)
      (.ready, some ⟨some id, answer settings tree call⟩)
  | heard {incoming : Incoming} (hrequest : ∀ id call, incoming ≠ .request id call)
      (hread : incoming ≠ .unreadable) : Reacts settings tree .ready incoming (.ready, none)
  | ended {stage : Stage} {incoming : Incoming} (hforeign : incoming ≠ .foreign)
      (hread : stage = .ready → incoming = .unreadable) :
        Reacts settings tree stage incoming (.closed, none)

theorem reacts_step (settings : Settings) (tree : FileTree) (stage : Stage) (incoming : Incoming) :
    Reacts settings tree stage incoming (step settings tree stage incoming) := by
  cases stage with
  | fresh =>
    cases incoming with
    | foreign => exact .passed (.inr rfl)
    | request id call =>
      cases call with
      | connect revision => exact .welcomed id revision
      | _ => exact .ended nofun nofun
    | _ => exact .ended nofun nofun
  | welcomed =>
    cases incoming with
    | foreign => exact .passed (.inr rfl)
    | notification name =>
      by_cases hname : name = initializedName
      · simp only [step, if_pos hname]
        exact hname ▸ .confirmed
      · simp only [step, if_neg hname]
        exact .ended nofun nofun
    | _ => exact .ended nofun nofun
  | ready =>
    cases incoming with
    | foreign => exact .passed (.inr rfl)
    | request id call => exact .answered id call
    | notification name => exact .heard nofun nofun
    | reply => exact .heard nofun nofun
    | unreadable => exact .ended nofun fun _ => rfl
  | closed => exact .passed (.inl rfl)

theorem Reacts.rank_le (h : Reacts settings tree stage incoming reaction) :
    stage.rank ≤ reaction.1.rank := by
  cases h with
  | passed _ => exact Nat.le_refl _
  | welcomed id revision => exact Nat.zero_le _
  | confirmed => decide
  | answered id call => exact Nat.le_refl _
  | heard _ _ => exact Nat.le_refl _
  | ended _ _ => cases stage <;> decide

theorem Reacts.request_of_response {response : Response}
    (h : Reacts settings tree stage incoming reaction) (hresponse : reaction.2 = some response) :
    ∃ id call, incoming = .request id call ∧ response.id = some id := by
  cases h with
  | welcomed id revision =>
    cases hresponse
    exact ⟨id, _, rfl, rfl⟩
  | answered id call =>
    cases hresponse
    exact ⟨id, call, rfl, rfl⟩
  | passed _ | confirmed | heard _ _ | ended _ _ => cases hresponse

theorem Reacts.opens (h : Reacts settings tree stage incoming reaction) (hready : stage ≠ .ready)
    (hforeign : incoming ≠ .foreign) (hopen : reaction.1 ≠ .closed) :
    (∃ id revision, stage = .fresh ∧ incoming = .request id (.connect revision) ∧
      reaction.1 = .welcomed) ∨
      (stage = .welcomed ∧ incoming = .notification initializedName ∧ reaction.1 = .ready) := by
  cases h with
  | passed h => exact (h.elim hopen hforeign).elim
  | welcomed id revision => exact .inl ⟨id, revision, rfl, rfl, rfl⟩
  | confirmed => exact .inr ⟨rfl, rfl, rfl⟩
  | answered id call => exact absurd rfl hready
  | heard _ _ => exact absurd rfl hready
  | ended _ _ => exact absurd rfl hopen

def stageAfter (settings : Settings) (tree : FileTree) (stage : Stage)
    (messages : List Json) : Stage :=
  messages.foldl (fun stage message => (step settings tree stage (.ofJson message)).1) stage

def responses (settings : Settings) (tree : FileTree) (stage : Stage)
    (messages : List Json) : List Response :=
  (talk settings tree stage messages).filterMap (·.2)

theorem stageAfter_append (settings : Settings) (tree : FileTree) (stage : Stage)
    (messages messages' : List Json) :
    stageAfter settings tree stage (messages ++ messages') =
      stageAfter settings tree (stageAfter settings tree stage messages) messages' :=
  List.foldl_append

theorem talk_append (settings : Settings) (tree : FileTree) (stage : Stage)
    (messages messages' : List Json) :
    talk settings tree stage (messages ++ messages') =
      talk settings tree stage messages ++ talk settings tree
        (stageAfter settings tree stage messages) messages' := by
  induction messages generalizing stage with
  | nil => rfl
  | cons message messages ih => exact congrArg _ (ih _)

theorem stageAfter_cons (settings : Settings) (tree : FileTree) (stage : Stage) (message : Json)
    (rest : List Json) : stageAfter settings tree stage (message :: rest) =
      stageAfter settings tree (step settings tree stage (.ofJson message)).1 rest := rfl

theorem responses_cons (settings : Settings) (tree : FileTree) (stage : Stage) (message : Json)
    (rest : List Json) : responses settings tree stage (message :: rest) =
      (step settings tree stage (.ofJson message)).2.toList ++
        responses settings tree (step settings tree stage (.ofJson message)).1 rest := by
  rw [responses, talk, List.filterMap_cons]
  cases (step settings tree stage (.ofJson message)).2 <;> rfl

theorem responses_append (settings : Settings) (tree : FileTree) (stage : Stage)
    (messages messages' : List Json) :
    responses settings tree stage (messages ++ messages') =
      responses settings tree stage messages ++
      responses settings tree (stageAfter settings tree stage messages) messages' := by
  simp only [responses, talk_append, List.filterMap_append]

theorem rank_le_stageAfter (settings : Settings) (tree : FileTree) (stage : Stage)
    (messages : List Json) :
    stage.rank ≤ (stageAfter settings tree stage messages).rank := by
  induction messages generalizing stage with
  | nil => exact Nat.le_refl _
  | cons message rest ih => exact Nat.le_trans (reacts_step settings tree stage
      (.ofJson message)).rank_le (ih _)

def requestId? (message : Json) : Option Json :=
  match Incoming.ofJson message with
  | .request id _ => some id
  | _ => none

/-- No request has two responses, no response is without a request, and the order is kept. -/
theorem responses_sublist (settings : Settings) (tree : FileTree) (stage : Stage)
    (messages : List Json) :
    ((responses settings tree stage messages).map (·.id)).Sublist
      ((messages.filterMap requestId?).map some) := by
  induction messages generalizing stage with
  | nil => exact .slnil
  | cons message rest ih =>
    have hrest := ih (step settings tree stage (.ofJson message)).1
    rw [responses_cons, List.filterMap_cons]
    cases hresponse : (step settings tree stage (.ofJson message)).2 with
    | none =>
      cases requestId? message with
      | none => exact hrest
      | some id => exact hrest.cons _
    | some response =>
      have hstep := reacts_step settings tree stage (.ofJson message)
      obtain ⟨id, call, hrequest, hid⟩ := hstep.request_of_response hresponse
      have hmessage : requestId? message = some id := by rw [requestId?, hrequest]
      simp only [hmessage, List.map_cons, Option.toList_some, List.cons_append,
        List.nil_append, hid]
      exact hrest.cons_cons _

theorem stageAfter_closed (settings : Settings) (tree : FileTree) (messages : List Json) :
    stageAfter settings tree .closed messages = .closed := by
  have hrank := rank_le_stageAfter settings tree .closed messages
  cases h : stageAfter settings tree .closed messages with
  | closed => rfl
  | fresh | welcomed | ready =>
    rw [h] at hrank
    exact absurd hrank (by decide)

def isReadable (message : Json) : Bool :=
  match Incoming.ofJson message with
  | .unreadable => false
  | _ => true

def response? (settings : Settings) (tree : FileTree) (message : Json) : Option Response :=
  match Incoming.ofJson message with
  | .request id call => some ⟨some id, answer settings tree call⟩
  | _ => none

theorem step_ready (settings : Settings) (tree : FileTree) (message : Json) :
    step settings tree .ready (.ofJson message) =
      if isReadable message then (.ready, response? settings tree message) else
        (.closed, none) := by
  unfold isReadable response?
  cases Incoming.ofJson message <;> rfl

theorem step_foreign (settings : Settings) (tree : FileTree) (stage : Stage) :
    step settings tree stage .foreign = (stage, none) := by
  cases stage <;> rfl

theorem stageAfter_ready_eq_ready_iff : stageAfter settings tree .ready messages = .ready ↔
    ∀ message ∈ messages, isReadable message = true := by
  induction messages with
  | nil => exact iff_of_true rfl nofun
  | cons message rest ih =>
    rw [List.forall_mem_cons, stageAfter_cons, step_ready]
    cases isReadable message with
    | true => exact ih.trans (by simp)
    | false => exact iff_of_false (fun h => nomatch
        (stageAfter_closed settings tree rest).symm.trans h) (by simp)

theorem responses_closed (settings : Settings) (tree : FileTree) (messages : List Json) :
    responses settings tree .closed messages = [] := by
  induction messages with
  | nil => rfl
  | cons message rest ih => exact ih

theorem responses_ready (settings : Settings) (tree : FileTree) (messages : List Json) :
    responses settings tree .ready messages =
      (messages.takeWhile isReadable).filterMap (response? settings tree) := by
  induction messages with
  | nil => rfl
  | cons message rest ih =>
    rw [responses_cons, step_ready, List.takeWhile_cons]
    cases isReadable message with
    | true =>
      simp only [if_true, List.filterMap_cons, ih]
      cases response? settings tree message <;> rfl
    | false => exact responses_closed settings tree rest

theorem stageAfter_of_foreign (h : ∀ message ∈ messages, Incoming.ofJson message = .foreign)
    (settings : Settings) (tree : FileTree) (stage : Stage) :
    stageAfter settings tree stage messages = stage := by
  induction messages with
  | nil => rfl
  | cons message rest ih =>
    rw [List.forall_mem_cons] at h
    rw [stageAfter_cons, h.1, step_foreign]
    exact ih h.2

theorem responses_of_foreign (h : ∀ message ∈ messages, Incoming.ofJson message = .foreign)
    (settings : Settings) (tree : FileTree) (stage : Stage) :
      responses settings tree stage messages = [] := by
  induction messages with
  | nil => rfl
  | cons message rest ih =>
    rw [List.forall_mem_cons] at h
    rw [responses_cons, h.1, step_foreign]
    exact ih h.2

theorem exists_opening_of_ready (hready : stage ≠ .ready)
    (h : stageAfter settings tree stage messages = .ready) :
    ∃ passed message rest, messages = passed ++ message :: rest ∧
      (∀ other ∈ passed, Incoming.ofJson other = .foreign) ∧
      ((∃ id revision, stage = .fresh ∧ Incoming.ofJson message = .request id (.connect revision) ∧
          stageAfter settings tree .welcomed rest = .ready) ∨
        (stage = .welcomed ∧ Incoming.ofJson message = .notification initializedName ∧
          stageAfter settings tree .ready rest = .ready)) := by
  induction messages with
  | nil => exact absurd h hready
  | cons first messages ih =>
    rw [stageAfter_cons] at h
    by_cases hforeign : Incoming.ofJson first = .foreign
    · rw [hforeign, step_foreign] at h
      obtain ⟨passed, message, rest, rfl, hpassed, hmessage⟩ := ih h
      exact ⟨first :: passed, message, rest, rfl, List.forall_mem_cons.2 ⟨hforeign, hpassed⟩,
        hmessage⟩
    · refine ⟨[], first, messages, rfl, nofun, ?_⟩
      have hopen : (step settings tree stage (.ofJson first)).1 ≠ .closed := by
        intro hclosed
        rw [hclosed, stageAfter_closed] at h
        exact nomatch h
      obtain ⟨id, revision, hstage, hconnect, hwelcomed⟩ | ⟨hstage, hconfirm, hconfirmed⟩ :=
        (reacts_step settings tree stage (.ofJson first)).opens hready hforeign hopen
      · exact .inl ⟨id, revision, hstage, hconnect, hwelcomed ▸ h⟩
      · exact .inr ⟨hstage, hconfirm, hconfirmed ▸ h⟩

/-- The messages with which a client introduces itself: one that connects and one that says that it
is ready, with nothing else but messages of other protocols. -/
inductive Introduces (id : Json) (revision : String) : List Json → Prop
  | intro {passed passed' : List Json} {connect confirm : Json}
    (hpassed : ∀ message ∈ passed, Incoming.ofJson message = .foreign)
    (hconnect : Incoming.ofJson connect = .request id (.connect revision))
    (hpassed' : ∀ message ∈ passed', Incoming.ofJson message = .foreign)
    (hconfirm : Incoming.ofJson confirm = .notification initializedName) :
    Introduces id revision (passed ++ connect :: (passed' ++ [confirm]))

theorem Introduces.stageAfter_eq_ready (h : Introduces id revision opening)
    (settings : Settings) (tree : FileTree) :
    stageAfter settings tree .fresh opening = .ready := by
  obtain ⟨hpassed, hconnect, hpassed', hconfirm⟩ := h
  rw [stageAfter_append, stageAfter_of_foreign hpassed, stageAfter_cons, hconnect]
  change stageAfter settings tree .welcomed _ = .ready
  rw [stageAfter_append, stageAfter_of_foreign hpassed', stageAfter_cons, hconfirm]
  rfl

theorem Introduces.responses_eq (h : Introduces id revision opening)
    (settings : Settings) (tree : FileTree) :
    responses settings tree .fresh opening =
      [.success (some id) (welcome settings (agreedRevision revision))] := by
  obtain ⟨hpassed, hconnect, hpassed', hconfirm⟩ := h
  rw [responses_append, responses_of_foreign hpassed, stageAfter_of_foreign hpassed,
    responses_cons, hconnect]
  change [_] ++ responses settings tree .welcomed _ = _
  rw [responses_append, responses_of_foreign hpassed', stageAfter_of_foreign hpassed',
    responses_cons, hconfirm]
  rfl

/-- A client is ready exactly if it introduced itself and then sent nothing that cannot be read. -/
theorem stageAfter_eq_ready_iff : stageAfter settings tree .fresh messages = .ready ↔
    ∃ id revision opening rest, Introduces id revision opening ∧ messages = opening ++ rest ∧
      ∀ message ∈ rest, isReadable message = true := by
  constructor
  · intro h
    obtain ⟨passed, connect, messages', rfl, hpassed, hwelcomed⟩ :=
      exists_opening_of_ready (by decide) h
    obtain ⟨id, revision, -, hconnect, h'⟩ | ⟨hfresh, -⟩ := hwelcomed
    · obtain ⟨passed', confirm, rest, rfl, hpassed', hready⟩ :=
        exists_opening_of_ready (by decide) h'
      obtain ⟨_, _, hwelcomed, -⟩ | ⟨-, hconfirm, hrest⟩ := hready
      · exact nomatch hwelcomed
      · exact ⟨id, revision, _, rest, .intro hpassed hconnect hpassed' hconfirm, by simp,
          stageAfter_ready_eq_ready_iff.1 hrest⟩
    · exact nomatch hfresh
  · rintro ⟨id, revision, opening, rest, hopening, rfl, hrest⟩
    rw [stageAfter_append, hopening.stageAfter_eq_ready, stageAfter_ready_eq_ready_iff]
    exact hrest

/-- Once a client has introduced itself and is welcomed, every request has its answer in the order
of the requests, up to a message that cannot be read. -/
theorem responses_of_introduces (h : Introduces id revision opening)
    (settings : Settings) (tree : FileTree)
    (rest : List Json) : responses settings tree .fresh (opening ++ rest) =
      .success (some id) (welcome settings (agreedRevision revision)) ::
        (rest.takeWhile isReadable).filterMap (response? settings tree) := by
  rw [responses_append, h.responses_eq, h.stageAfter_eq_ready, responses_ready]
  rfl

theorem answer_of_read? (h : Call.read? method given = some (.callTool name arguments))
    (settings : Settings) (tree : FileTree) :
    (∃ tool : Tool, tool.name = name ∧ ∃ args, arguments = .object args ∧
      answer settings tree (.callTool name arguments) = .ok (tool.run settings tree args).json) ∨
    (name ∉ Choice.names Tool ∧
      answer settings tree (.callTool name arguments) =
        .error ⟨.invalidParams, "tool not found"⟩) := by
  obtain ⟨-, params, args, -, -, -, -, rfl⟩ := Call.read?_eq_callTool_iff.1 h
  by_cases hname : name ∈ Choice.names Tool
  · obtain ⟨tool, rfl⟩ := Tool.exists_name_of_mem hname
    refine .inl ⟨tool, rfl, args, rfl, ?_⟩
    simp only [answer, callTool, Tool.call_name, Tool.runValue_object]
  · refine .inr ⟨hname, ?_⟩
    simp only [answer, callTool, Tool.call_of_notMem hname]

/-- A call of a tool has one answer, whether it comes on a stream or over the web. -/
theorem outcome_handle_eq_answer {params : Json}
    (h : Call.read? method (some params) = some (.callTool name arguments))
    (hname : name ∈ Choice.names Tool)
    (settings : Settings) (tree : FileTree) (session : Option Session) (id : Option Json) :
    (handle settings tree session ⟨"2.0", id, method, some params⟩).2.outcome =
      answer settings tree (.callTool name arguments) := by
  obtain ⟨rfl, params', args, hparams, -, hget, harguments, rfl⟩ := Call.read?_eq_callTool_iff.1 h
  cases hparams
  obtain ⟨tool, rfl⟩ := Tool.exists_name_of_mem hname
  have hcall : Tool.call settings tree tool.name ((params.get? "arguments").getD (.object [])) =
      .ok (tool.run settings tree args) := by
    rw [Tool.call_name]
    refine Tool.runValue_of_isArguments ?_ settings tree tool
    rcases harguments with hsome | ⟨rfl, hnone | hnull⟩
    · exact .inl (by rw [hsome, Option.getD_some])
    · exact .inl (by rw [hnone, Option.getD_none])
    · exact .inr ⟨by rw [hnull, Option.getD_some], rfl⟩
  have hhandle : (handle settings tree session ⟨"2.0", id, "tools/call", some params⟩).2 =
      Server.callTool settings tree ⟨"2.0", id, "tools/call", some params⟩ := rfl
  rw [hhandle]
  simp only [Server.callTool, Json.get?_bind_asString?_eq_some.2 hget,
    hcall, answer, callTool, Tool.call_name, Tool.runValue_object, Response.success]

end Calculator.Server.Stream
