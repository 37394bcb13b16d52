import Calculator.Proofs.Tool.Result
import Calculator.Server.Session
import Mathlib.Tactic.SplitIfs

/-!
# Responses to requests

Every request has one response: to another version of the protocol, to a method that there is not,
to a call that is refused, or with a result. The code of the error tells which, and a call that is
not refused has what the tool gives as its result, so a calculation that fails is no error of the
protocol.
-/

namespace Calculator

namespace Rpc.Response

variable {r : Request}

def code? (response : Response) : Option Int :=
  match (response.document.get? "error").bind (Json.get? "code") with
  | some (.whole w) => some w.val
  | _ => none

structure Answers (r : Request) (response : Response) : Prop where
  version : response.document.get? "jsonrpc" = some (.string "2.0")
  id : response.document.get? "id" = r.id
  exclusive : (response.document.get? "result").isSome = true ↔
    response.document.get? "error" = none

theorem document_success (id : Option Json) (result : Json) :
    (success id result).document.get? "jsonrpc" = some (.string "2.0") ∧
      (success id result).document.get? "id" = id ∧
      (success id result).document.get? "result" = some result ∧
      (success id result).document.get? "error" = none := by
  cases id with
  | none =>
    refine ⟨Json.get?_ofMembers ?_ ?_, Json.get?_ofMembers_eq_none ?_, Json.get?_ofMembers ?_ ?_,
      Json.get?_ofMembers_eq_none ?_⟩ <;> simp [success, protocolName]
  | some id =>
    refine ⟨Json.get?_ofMembers ?_ ?_, Json.get?_ofMembers ?_ ?_, Json.get?_ofMembers ?_ ?_,
      Json.get?_ofMembers_eq_none ?_⟩ <;> simp [success, protocolName]

theorem document_failure (id : Option Json) (kind : ErrorKind) (message : String) :
    (failure id kind message).document.get? "jsonrpc" = some (.string "2.0") ∧
      (failure id kind message).document.get? "id" = id ∧
      (failure id kind message).document.get? "result" = none ∧
      (failure id kind message).document.get? "error" = some (Error.document ⟨kind, message⟩) := by
  cases id with
  | none =>
    refine ⟨Json.get?_ofMembers ?_ ?_, Json.get?_ofMembers_eq_none ?_,
      Json.get?_ofMembers_eq_none ?_, Json.get?_ofMembers ?_ ?_⟩ <;> simp [failure, protocolName]
  | some id =>
    refine ⟨Json.get?_ofMembers ?_ ?_, Json.get?_ofMembers ?_ ?_, Json.get?_ofMembers_eq_none ?_,
      Json.get?_ofMembers ?_ ?_⟩ <;> simp [failure, protocolName]

theorem code?_success (id : Option Json) (result : Json) : (success id result).code? = none := by
  rw [code?, (document_success id result).2.2.2]
  rfl

theorem code?_failure (id : Option Json) (kind : ErrorKind) (message : String) :
    (failure id kind message).code? = some kind.code := by
  have hcode : (Error.document ⟨kind, message⟩).get? "code" = some (number kind.code) := by
    apply Json.get?_ofMembers <;> simp
  rw [code?, (document_failure id kind message).2.2.2, Option.bind_some, hcode]
  cases kind <;> rfl

theorem answers_success (r : Request) (result : Json) : (success r.id result).Answers r := by
  obtain ⟨hversion, hid, hresult, herror⟩ := document_success r.id result
  refine ⟨hversion, hid, iff_of_true ?_ herror⟩
  rw [hresult]
  rfl

theorem answers_failure (r : Request) (kind : ErrorKind) (message : String) :
    (failure r.id kind message).Answers r := by
  obtain ⟨hversion, hid, hresult, herror⟩ := document_failure r.id kind message
  refine ⟨hversion, hid, iff_of_false ?_ ?_⟩
  · rw [hresult]
    exact Bool.false_ne_true
  · rw [herror]
    exact Option.some_ne_none _

end Rpc.Response

namespace Server

open Rpc

variable {settings : Settings} {tree : FileTree} {session : Option Session}
  {r : Request} {response : Response}

def UnknownMethod (name : String) : Prop :=
  name ∉ ["initialize", "tools/list", "tools/call", "ping"] ∧
    ¬"notifications/".toList <+: name.toList

theorem Method.eq_of_ofName_eq_callTool {name : String} (h : ofName name = .callTool) :
    name = "tools/call" := by
  simp only [ofName] at h
  split_ifs at h
  assumption

theorem Method.unknownMethod_iff {name : String} :
    UnknownMethod name ↔ ∃ shown, ofName name = .unknown shown := by
  have hprefix : isNotificationName name = true ↔ "notifications/".toList <+: name.toList :=
    List.isPrefixOf_iff_prefix
  simp only [UnknownMethod, ← hprefix, List.mem_cons, List.not_mem_nil, or_false, not_or, ofName]
  split_ifs <;> simp_all

/-- A call without a tool's name, or with arguments that no tool takes. -/
inductive RefusedCall : Option Json → Prop
  | noParams : RefusedCall none
  | noName {params : Json} (h : ∀ name, params.get? "name" ≠ some (.string name)) :
      RefusedCall (some params)
  | unknownTool {params : Json} {name : String} (hname : params.get? "name" = some (.string name))
    (h : name ∉ Choice.names Tool) : RefusedCall (some params)
  | noObject {params v : Json} (h : params.get? "arguments" = some v) (hnull : v ≠ .null)
    (hobject : ∀ args, v ≠ .object args) : RefusedCall (some params)

/-- What a request is answered with. -/
inductive Handled (settings : Settings) (tree : FileTree) (r : Request) : Response → Prop
  | otherVersion (hversion : r.version ≠ "2.0") :
    Handled settings tree r (.failure r.id .invalidRequest "Invalid Request")
  | unknownMethod (hversion : r.version = "2.0") (hmethod : UnknownMethod r.method) :
    Handled settings tree r (.failure r.id .methodNotFound "Method not found")
  | refused {message : String} (hversion : r.version = "2.0") (hmethod : r.method = "tools/call")
    (hparams : RefusedCall r.params) : Handled settings tree r
      (.failure r.id .invalidParams message)
  | called {params : Json} {name : String} {result : ToolResult} (hversion : r.version = "2.0")
    (hmethod : r.method = "tools/call") (hparams : r.params = some params)
    (hname : params.get? "name" = some (.string name))
    (hcall : Tool.call settings tree name ((params.get? "arguments").getD (.object [])) =
      .ok result) :
    Handled settings tree r (.success r.id result.json)
  | served {result : Json} (hversion : r.version = "2.0") (hmethod : r.method ≠ "tools/call")
    (hknown : ¬UnknownMethod r.method) : Handled settings tree r (.success r.id result)

theorem refusedCall_of_fault {params : Json} {name : String} {fault : CallFault}
    (hname : params.get? "name" = some (.string name))
    (hcall : Tool.call settings tree name ((params.get? "arguments").getD (.object [])) =
      .error fault) :
    RefusedCall (some params) ∧ fault.isInternal = false := by
  cases fault with
  | unknownTool shown =>
    exact ⟨.unknownTool hname (Tool.call_unknownTool_iff.1 ⟨shown, hcall⟩), rfl⟩
  | invalidArguments text =>
    obtain ⟨-, hnull, hobject⟩ := Tool.call_invalidArguments_iff.1 ⟨text, hcall⟩
    cases harguments : params.get? "arguments" with
    | none =>
      rw [harguments] at hobject
      exact absurd rfl (hobject [])
    | some v =>
      rw [harguments] at hnull hobject
      exact ⟨.noObject harguments hnull hobject, rfl⟩
  | internal text => exact absurd hcall (Tool.call_ne_internal text)

theorem handled_callTool (hversion : r.version = "2.0") (hmethod : r.method = "tools/call") :
    Handled settings tree r (callTool settings tree r) := by
  cases hparams : r.params with
  | none =>
    simp only [callTool, hparams]
    exact .refused hversion hmethod (hparams ▸ .noParams)
  | some params =>
    cases hname : (params.get? "name").bind Json.asString? with
    | none =>
      simp only [callTool, hparams, hname]
      refine .refused hversion hmethod (hparams ▸ .noName fun name hget => ?_)
      rw [hget] at hname
      cases hname
    | some name =>
      have hget := Json.get?_bind_asString?_eq_some.1 hname
      cases hcall : Tool.call settings tree name ((params.get? "arguments").getD (.object [])) with
      | ok result =>
        simp only [callTool, hparams, hname, hcall]
        exact .called hversion hmethod hparams hget hcall
      | error fault =>
        obtain ⟨hrefused, hfault⟩ := refusedCall_of_fault hget hcall
        simp only [callTool, hparams, hname, hcall, hfault, Bool.false_eq_true, if_false]
        exact .refused hversion hmethod (hparams ▸ hrefused)

/-- A client is told of every tool that it can call, once and in the order of the names. -/
theorem toolListings_names : ∃ names : List String,
    toolListings.map (·.get? "name") = names.map (fun name => some (.string name)) ∧
      names.Perm (Choice.names Tool) ∧ names.Pairwise (· < ·) := by
  refine ⟨Tool.sortedByName.map Tool.name, ?_, Tool.sortedByName_perm_all.map _, ?_⟩
  · rw [toolListings, List.map_map, List.map_map]
    refine List.map_congr_left fun tool _ => ?_
    apply Json.get?_ofMembers <;> simp
  · exact List.pairwise_map.2 Tool.sortedByName_pairwise

theorem handled_handle (settings : Settings) (tree : FileTree) (session : Option Session)
    (r : Request) :
    Handled settings tree r (handle settings tree session r).2 := by
  by_cases hversion : r.version = "2.0"
  · have hversion' : r.version = protocolName := hversion
    simp only [handle, hversion', ne_eq, not_true_eq_false, if_false]
    by_cases hunknown : UnknownMethod r.method
    · obtain ⟨shown, hmethod⟩ := Method.unknownMethod_iff.1 hunknown
      rw [hmethod]
      exact .unknownMethod hversion hunknown
    by_cases hcall : r.method = "tools/call"
    · rw [hcall]
      exact handled_callTool hversion hcall
    · cases hmethod : Method.ofName r.method with
      | callTool => exact absurd (Method.eq_of_ofName_eq_callTool hmethod) hcall
      | unknown shown => exact absurd (Method.unknownMethod_iff.2 ⟨shown, hmethod⟩) hunknown
      | connect => exact .served hversion hcall hunknown
      | listTools => exact .served hversion hcall hunknown
      | ping => exact .served hversion hcall hunknown
      | notification name => exact .served hversion hcall hunknown
  · have hversion' : r.version ≠ protocolName := hversion
    simp only [handle, hversion', ne_eq, not_false_eq_true, if_true]
    exact .otherVersion hversion

theorem not_refusedCall_of_call {params : Json} {name : String} {result : ToolResult}
    (hname : params.get? "name" = some (.string name))
    (hcall : Tool.call settings tree name ((params.get? "arguments").getD (.object [])) =
      .ok result) :
    ¬RefusedCall (some params) := by
  intro hrefused
  cases hrefused with
  | noName h => exact h name hname
  | unknownTool hname' h =>
    cases hname.symm.trans hname'
    obtain ⟨shown, hfault⟩ := Tool.call_unknownTool_iff.2 h
    exact nomatch hcall.symm.trans hfault
  | noObject harguments hnull hobject =>
    rw [harguments, Option.getD_some] at hcall
    by_cases hmem : name ∈ Choice.names Tool
    · obtain ⟨text, hfault⟩ := Tool.call_invalidArguments_iff.2 ⟨hmem, hnull, hobject⟩
      exact nomatch hcall.symm.trans hfault
    · exact nomatch hcall.symm.trans (Tool.call_of_notMem hmem settings tree _)

/-- How the code of a response tells what became of the request. -/
structure IsClassified (settings : Settings) (tree : FileTree) (r : Request)
    (response : Response) : Prop where
  answers : response.Answers r
  invalidRequest : response.code? = some (-32600) ↔ r.version ≠ "2.0"
  methodNotFound : response.code? = some (-32601) ↔ r.version = "2.0" ∧ UnknownMethod r.method
  invalidParams : response.code? = some (-32602) ↔
    r.version = "2.0" ∧ r.method = "tools/call" ∧ RefusedCall r.params
  noInternal : response.code? ≠ some (-32603)
  result : r.version = "2.0" → r.method = "tools/call" → ¬RefusedCall r.params →
    ∃ params name result, r.params = some params ∧ params.get? "name" = some (.string name) ∧
      Tool.call settings tree name ((params.get? "arguments").getD (.object [])) = .ok result ∧
      response.document.get? "result" = some result.json

theorem Handled.isClassified (h : Handled settings tree r response) :
    IsClassified settings tree r response := by
  cases h with
  | otherVersion hversion =>
    refine ⟨Response.answers_failure r _ _, ?_, ?_, ?_, ?_, ?_⟩ <;>
      simp [Response.code?_failure, ErrorKind.code, hversion]
  | unknownMethod hversion hmethod =>
    have hcall : r.method ≠ "tools/call" := by
      rintro hcall
      simp [UnknownMethod, hcall] at hmethod
    refine ⟨Response.answers_failure r _ _, ?_, ?_, ?_, ?_, ?_⟩ <;>
      simp [Response.code?_failure, ErrorKind.code, hversion, hmethod, hcall]
  | refused hversion hmethod hparams =>
    have hknown : ¬UnknownMethod "tools/call" := by simp [UnknownMethod]
    refine ⟨Response.answers_failure r _ _, ?_, ?_, ?_, ?_, ?_⟩ <;>
      simp [Response.code?_failure, ErrorKind.code, hversion, hmethod, hknown, hparams]
  | @called params name result hversion hmethod hparams hname hcall =>
    have hknown : ¬UnknownMethod "tools/call" := by simp [UnknownMethod]
    have hrefused : ¬RefusedCall r.params := hparams ▸ not_refusedCall_of_call hname hcall
    refine ⟨Response.answers_success r _, ?_, ?_, ?_, ?_, ?_⟩
    · simp [Response.code?_success, hversion]
    · simp [Response.code?_success, hmethod, hknown]
    · simp [Response.code?_success, hrefused]
    · simp [Response.code?_success]
    · intro _ _ _
      exact ⟨params, name, result, hparams, hname, hcall,
        (Response.document_success r.id result.json).2.2.1⟩
  | served hversion hmethod hknown =>
    refine ⟨Response.answers_success r _, ?_, ?_, ?_, ?_, ?_⟩ <;>
      simp [Response.code?_success, hversion, hmethod, hknown]

/-- Every request, in every state of the session, has one response, whose code tells whether the
version, the method or the call was refused. A call that was not has the tool's result, whether its
calculation failed or not. -/
theorem handle_isClassified (settings : Settings) (tree : FileTree) (session : Option Session)
    (r : Request) :
    IsClassified settings tree r (handle settings tree session r).2 :=
  (handled_handle settings tree session r).isClassified

end Server

end Calculator
