import Calculator.Proofs.Json.Members
import Calculator.Rpc.Incoming
import Mathlib.Tactic.SplitIfs

/-!
# Which messages are requests

A message is a request exactly if it speaks the protocol and has an id, a method and parameters of
the right kinds. A tool is called with an object of arguments, so that no call that was read is
refused for their kind. A message is passed over only if no message of the protocol has its name.
-/

namespace Calculator.Rpc

variable {message id arguments : Json} {given : Option Json}
  {method name revision : String} {call : Call}

namespace Call

def GivesArguments (params : Json) (args : List (String × Json)) : Prop :=
  params.get? "arguments" = some (.object args) ∨
    args = [] ∧ (params.get? "arguments" = none ∨ params.get? "arguments" = some .null)

theorem ofToolParams?_eq_some_iff {params : Json} : ofToolParams? params = some call ↔
    ∃ name args, params.get? "name" = some (.string name) ∧ GivesArguments params args ∧
      call = .callTool name (.object args) := by
  simp only [ofToolParams?, Option.bind_eq_bind, GivesArguments]
  rw [Option.bind_eq_some_iff]
  refine exists_congr fun name => ?_
  rw [Json.get?_bind_asString?_eq_some]
  rcases params.get? "arguments" with _ | ⟨_ | _ | _ | _ | _ | _ | _⟩ <;> simp [eq_comm]

theorem read?_isSome_iff :
    (read? method given).isSome = true ↔ method = "ping" ∨ optional isParams given = true := by
  unfold read?
  split_ifs <;> simp_all

def isAddressed : Call → Bool
  | connect _ | callTool _ _ => true
  | _ => false

theorem ofParams_eq_connect_iff {params : Json} :
    ofParams method params = .connect revision ↔
      method = "initialize" ∧ revision? params = some revision := by
  unfold ofParams
  split_ifs with hconnect htool hcomplete
  · cases revision? params <;> simp [hconnect]
  · cases hcall : ofToolParams? params with
    | none => simp [hconnect]
    | some call =>
      obtain ⟨name, args, -, -, rfl⟩ := ofToolParams?_eq_some_iff.1 hcall
      simp [hconnect]
  all_goals simp [hconnect]

theorem ofParams_eq_callTool_iff {params : Json} :
    ofParams method params = .callTool name arguments ↔
      method = "tools/call" ∧ ofToolParams? params = some (.callTool name arguments) := by
  unfold ofParams
  split_ifs with hconnect htool hcomplete
  · cases revision? params <;> simp [hconnect]
  · cases ofToolParams? params <;> simp [htool]
  all_goals simp [htool]

theorem isAddressed_ofParams_null (method : String) :
    (ofParams method .null).isAddressed = false := by
  cases hcall : ofParams method .null with
  | connect revision => exact nomatch (ofParams_eq_connect_iff.1 hcall).2
  | callTool name arguments => exact nomatch (ofParams_eq_callTool_iff.1 hcall).2
  | ping | complete | listPrompts | listResources | listResourceTemplates | listTools | other => rfl

theorem method_of_isAddressed {params : Json} (h : (ofParams method params).isAddressed = true) :
    method = "initialize" ∨ method = "tools/call" := by
  cases hcall : ofParams method params with
  | connect revision => exact .inl (ofParams_eq_connect_iff.1 hcall).1
  | callTool name arguments => exact .inr (ofParams_eq_callTool_iff.1 hcall).1
  | ping | complete | listPrompts | listResources | listResourceTemplates | listTools | other =>
    exact nomatch hcall ▸ h

theorem isParams_of_optional {params : Json} (hnull : params ≠ .null) :
    optional isParams (some params) = isParams params := by
  cases params <;> first | rfl | exact absurd rfl hnull

theorem read?_eq_some_iff_of_isAddressed (hcall : call.isAddressed = true) :
    read? method given = some call ↔
    ∃ params, given = some params ∧ isParams params = true ∧ ofParams method params = call := by
  constructor
  · intro h
    have hread : optional isParams given = true ∧ ofParams method (given.getD .null) = call := by
      unfold read? at h
      split_ifs at h with hping hparams <;> obtain rfl := Option.some.inj h
      all_goals first | exact ⟨hparams, rfl⟩ | exact nomatch hcall
    obtain ⟨hparams, rfl⟩ := hread
    cases given with
    | none => exact nomatch (isAddressed_ofParams_null method).symm.trans hcall
    | some params =>
      have hnull : params ≠ .null := by
        rintro rfl
        exact nomatch (isAddressed_ofParams_null method).symm.trans hcall
      exact ⟨params, rfl, isParams_of_optional hnull ▸ hparams, rfl⟩
  · rintro ⟨params, rfl, hparams, rfl⟩
    have hnull : params ≠ .null := by
      rintro rfl
      exact nomatch (isAddressed_ofParams_null method).symm.trans hcall
    rcases method_of_isAddressed hcall with rfl | rfl <;>
      simp [read?, isParams_of_optional hnull, hparams]

theorem read?_eq_connect_iff : read? method given = some (.connect revision) ↔
    method = "initialize" ∧ ∃ params, given = some params ∧ isParams params = true ∧
      revision? params = some revision := by
  have hcall : (connect revision).isAddressed = true := rfl
  simp only [read?_eq_some_iff_of_isAddressed hcall, ofParams_eq_connect_iff]
  grind

theorem read?_eq_callTool_iff : read? method given = some (.callTool name arguments) ↔
    method = "tools/call" ∧ ∃ params args, given = some params ∧ isParams params = true ∧
      params.get? "name" = some (.string name) ∧ GivesArguments params args ∧
      arguments = .object args := by
  have hcall : (callTool name arguments).isAddressed = true := rfl
  simp only [read?_eq_some_iff_of_isAddressed hcall, ofParams_eq_callTool_iff,
    ofToolParams?_eq_some_iff, callTool.injEq]
  grind

end Call

namespace Incoming

theorem request?_eq_some_iff {incoming : Incoming} : request? message = some incoming ↔
    ∃ id method call, message.get? "id" = some id ∧ isId id = true ∧
      message.get? "method" = some (.string method) ∧
      Call.read? method (message.get? "params") = some call ∧ incoming = .request id call := by
  simp only [request?, method?, Option.bind_eq_bind]
  rw [Option.bind_eq_some_iff]
  refine exists_congr fun id => ?_
  constructor
  · rintro ⟨hid, hrest⟩
    obtain ⟨method, hmethod, hcall⟩ := Option.bind_eq_some_iff.1 hrest
    split_ifs at hcall with hkind
    obtain ⟨call, hread, rfl⟩ := Option.map_eq_some_iff.1 hcall
    exact ⟨method, call, hid, hkind, Json.get?_bind_asString?_eq_some.1 hmethod, hread, rfl⟩
  · rintro ⟨method, call, hid, hkind, hmethod, hread, rfl⟩
    refine ⟨hid, ?_⟩
    rw [Json.get?_bind_asString?_eq_some.2 hmethod, Option.bind_some,
      if_pos hkind, hread, Option.map_some]

theorem name_of_notification?_eq_some {incoming : Incoming}
    (h : notification? message = some incoming) :
    ∃ name, message.get? "method" = some (.string name) ∧ incoming = .notification name := by
  obtain ⟨name, hmethod, hname⟩ := Option.bind_eq_some_iff.1 h
  split_ifs at hname
  exact ⟨name, Json.get?_bind_asString?_eq_some.1 hmethod, (Option.some.inj hname).symm⟩

theorem ofUnread_eq_foreign_or_unreadable (message : Json) :
    ofUnread message = .unreadable ∨ ofUnread message = .foreign ∧
      ∃ name, message.get? "method" = some (.string name) ∧ name ∉ notificationNames ∧
        (isNotificationName name = true ∨ message.get? "id" = none ∧ name ∉ requestNames) := by
  unfold ofUnread
  cases hmethod : method? message with
  | none => exact .inl rfl
  | some name =>
    have hname := Json.get?_bind_asString?_eq_some.1 hmethod
    dsimp only
    split_ifs with halone hother
    · simp only [Bool.and_eq_true, Option.isNone_iff_eq_none, Bool.not_eq_true',
        Bool.or_eq_false_iff, List.contains_eq_mem, decide_eq_false_iff_not] at halone
      exact .inr ⟨rfl, name, hname, halone.2.2, .inr ⟨halone.1, halone.2.1⟩⟩
    · simp only [Bool.and_eq_true, Bool.not_eq_true', List.contains_eq_mem,
        decide_eq_false_iff_not] at hother
      exact .inr ⟨rfl, name, hname, hother.2, .inl hother.1⟩
    · exact .inl rfl

theorem cases_of_ofJson_eq {incoming : Incoming} (h : ofJson message = incoming) :
    (message.get? "jsonrpc" = some (.string "2.0") ∧ request? message = some incoming) ∨
      incoming = .reply ∨ notification? message = some incoming ∨ incoming = ofUnread message := by
  unfold ofJson at h
  dsimp only at h
  split at h
  · rename_i hrequest
    split_ifs at hrequest with hversion
    exact .inl ⟨Json.get?_bind_asString?_eq_some.1 hversion, h ▸ hrequest⟩
  by_cases hanswer : isAnswer message = true
  · rw [if_pos hanswer] at h
    exact .inr (.inl h.symm)
  rw [if_neg hanswer] at h
  split at h
  · rename_i hnotification
    split_ifs at hnotification
    exact .inr (.inr (.inl (h ▸ hnotification)))
  · split_ifs at h
    · exact .inr (.inl h.symm)
    · exact .inr (.inr (.inr h.symm))

/-- A message is a request exactly if it speaks the protocol and has an id, a method and parameters
of the right kinds. -/
theorem ofJson_eq_request_iff : ofJson message = .request id call ↔
    message.get? "jsonrpc" = some (.string "2.0") ∧ message.get? "id" = some id ∧ isId id = true ∧
      ∃ method, message.get? "method" = some (.string method) ∧
        Call.read? method (message.get? "params") = some call := by
  constructor
  · intro h
    rcases cases_of_ofJson_eq h with ⟨hversion, hrequest⟩ | hreply | hnotification | hunread
    · obtain ⟨id', method, call', hid, hkind, hmethod, hread, heq⟩ :=
        request?_eq_some_iff.1 hrequest
      cases heq
      exact ⟨hversion, hid, hkind, method, hmethod, hread⟩
    · exact nomatch hreply
    · obtain ⟨name, -, hname⟩ := name_of_notification?_eq_some hnotification
      exact nomatch hname
    · rcases ofUnread_eq_foreign_or_unreadable message with hlost | ⟨hforeign, -⟩
      · exact nomatch hunread.trans hlost
      · exact nomatch hunread.trans hforeign
  · rintro ⟨hversion, hid, hkind, method, hmethod, hread⟩
    have hspeaks : (message.get? "jsonrpc").bind Json.asString? = some protocolName :=
      Json.get?_bind_asString?_eq_some.2 hversion
    have hrequest : request? message = some (.request id call) :=
      request?_eq_some_iff.2 ⟨id, method, call, hid, hkind, hmethod, hread, rfl⟩
    simp only [ofJson, hspeaks, if_true, hrequest]

theorem name_of_ofJson_eq_foreign (h : ofJson message = .foreign) :
    ∃ name, message.get? "method" = some (.string name) ∧ name ∉ notificationNames ∧
      (isNotificationName name = true ∨ message.get? "id" = none ∧ name ∉ requestNames) := by
  rcases cases_of_ofJson_eq h with ⟨-, hrequest⟩ | hreply | hnotification | hunread
  · obtain ⟨id, method, call, -, -, -, -, heq⟩ := request?_eq_some_iff.1 hrequest
    exact nomatch heq
  · exact nomatch hreply
  · obtain ⟨name, -, hname⟩ := name_of_notification?_eq_some hnotification
    exact nomatch hname
  · rcases ofUnread_eq_foreign_or_unreadable message with hlost | ⟨-, hname⟩
    · exact nomatch hunread.trans hlost
    · exact hname

end Incoming

end Calculator.Rpc
