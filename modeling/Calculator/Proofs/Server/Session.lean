import Calculator.Server.Session
import Mathlib.Tactic.SplitIfs

/-!
# Sessions and their history

A request either connects, or confirms the session that there is, or leaves the session alone. So
after any run of requests there is a session exactly if some request connected, and it is complete
exactly if it was confirmed after the last of these. The files may change between the requests: the
session does not depend on them.
-/

namespace Calculator.Server

open Rpc

variable {settings : Settings} {tree : FileTree} {session : Option Session} {r : Request}
  {history history' : List (FileTree × Request)}

def Connects (r : Request) : Prop :=
  r.version = "2.0" ∧ r.method = "initialize"

def Confirms (r : Request) : Prop :=
  r.version = "2.0" ∧ r.method = "notifications/initialized"

instance : DecidablePred Connects :=
  fun _ => inferInstanceAs (Decidable (_ ∧ _))

instance : DecidablePred Confirms :=
  fun _ => inferInstanceAs (Decidable (_ ∧ _))

theorem handle_of_connects (h : Connects r) :
    (handle settings tree session r).1 = some ⟨false⟩ := by
  obtain ⟨hversion, hmethod⟩ := h
  have hversion' : r.version = protocolName := hversion
  have hconnect : Method.ofName r.method = .connect := by rw [hmethod]; rfl
  simp only [handle, hversion', hconnect, ne_eq, not_true_eq_false, if_false]

theorem handle_of_confirms (h : Confirms r) :
    (handle settings tree session r).1 = session.map fun _ => ⟨true⟩ := by
  obtain ⟨hversion, hmethod⟩ := h
  have hversion' : r.version = protocolName := hversion
  have hnotification : Method.ofName r.method = .notification initializedName := by
    rw [hmethod]; rfl
  simp only [handle, hversion', hnotification, ne_eq, not_true_eq_false,
    if_false, Session.notify, if_true]

theorem Method.eq_of_ofName_eq_connect {name : String} (h : Method.ofName name = .connect) :
    name = "initialize" := by
  by_cases hname : name = "initialize"
  · exact hname
  · simp only [ofName, hname, if_false] at h
    split_ifs at h

theorem Method.eq_of_ofName_eq_notification {name name' : String}
    (h : Method.ofName name = .notification name') :
    name = name' := by
  simp only [ofName] at h
  split_ifs at h
  exact Method.notification.inj h

theorem handle_session_eq_self (hconnects : ¬Connects r) (hconfirms : ¬Confirms r) :
    (handle settings tree session r).1 = session := by
  by_cases hversion : r.version = protocolName
  · simp only [handle, hversion, ne_eq, not_true_eq_false, if_false]
    cases hmethod : Method.ofName r.method with
    | connect => exact absurd ⟨hversion, Method.eq_of_ofName_eq_connect hmethod⟩ hconnects
    | notification name =>
      have hname : name ≠ initializedName := by
        intro heq
        exact hconfirms ⟨hversion, (Method.eq_of_ofName_eq_notification hmethod).trans heq⟩
      simp only [Session.notify, hname, if_false]
    | listTools => rfl
    | callTool => rfl
    | ping => rfl
    | unknown name => rfl
  · simp only [handle, hversion, ne_eq, not_false_eq_true, if_true]

/-- The session after requests that found the files in one state each. -/
def sessionAfter (settings : Settings) (session : Option Session)
    (history : List (FileTree × Request)) :
    Option Session :=
  history.foldl (fun session visit => (handle settings visit.1 session visit.2).1) session

theorem sessionAfter_append (settings : Settings) (session : Option Session)
    (history history' : List (FileTree × Request)) :
    sessionAfter settings session (history ++ history') =
      sessionAfter settings (sessionAfter settings session history) history' :=
  List.foldl_append

theorem handleAll_session (settings : Settings) (tree : FileTree) (session : Option Session)
    (requests : List Request) :
    (handleAll settings tree session requests).1 =
      sessionAfter settings session (requests.map fun r => (tree, r)) := by
  induction requests generalizing session with
  | nil => rfl
  | cons r rest ih => exact ih (handle settings tree session r).1

theorem sessionAfter_of_not_connects (h : ∀ visit ∈ history, ¬Connects visit.2)
    (session : Option Session) :
    sessionAfter settings session history =
      session.map fun s => ⟨s.initialized || history.any fun visit => Confirms visit.2⟩ := by
  -- The session is generalized: a request that confirms it leaves the rest of the history with a
  -- complete one.
  induction history generalizing session with
  | nil => cases session <;> simp [sessionAfter]
  | cons visit rest ih =>
    obtain ⟨hvisit, hrest⟩ := List.forall_mem_cons.1 h
    have hnext : sessionAfter settings session (visit :: rest) =
        sessionAfter settings (handle settings visit.1 session visit.2).1 rest := rfl
    rw [hnext, ih hrest]
    by_cases hconfirms : Confirms visit.2
    · rw [handle_of_confirms hconfirms, Option.map_map]
      simp [Function.comp_def, hconfirms]
    · rw [handle_session_eq_self hvisit hconfirms]
      simp [hconfirms]

theorem sessionAfter_of_last {visit : FileTree × Request} (hvisit : Connects visit.2)
    (h : ∀ later ∈ history', ¬Connects later.2) (session : Option Session) :
    sessionAfter settings session (history ++ visit :: history') =
      some ⟨history'.any fun later => Confirms later.2⟩ := by
  have hconnected : sessionAfter settings session (history ++ [visit]) = some ⟨false⟩ := by
    rw [sessionAfter_append]
    exact handle_of_connects hvisit
  rw [List.append_cons, sessionAfter_append, hconnected, sessionAfter_of_not_connects h]
  simp

theorem exists_last_connect (h : ∃ visit ∈ history, Connects visit.2) :
    ∃ before visit after, history = before ++ visit :: after ∧ Connects visit.2 ∧
      ∀ later ∈ after, ¬Connects later.2 := by
  induction history with
  | nil => simp at h
  | cons first rest ih =>
    -- The first request is the last one that connects only if none of the rest does.
    by_cases hrest : ∃ visit ∈ rest, Connects visit.2
    · obtain ⟨before, visit, after, rfl, hvisit, hlast⟩ := ih hrest
      exact ⟨first :: before, visit, after, rfl, hvisit, hlast⟩
    · have hlast : ∀ later ∈ rest, ¬Connects later.2 := fun later hlater hconnects =>
        hrest ⟨later, hlater, hconnects⟩
      obtain ⟨visit, hmem, hvisit⟩ := h
      rcases List.mem_cons.1 hmem with rfl | hmem
      · exact ⟨[], visit, rest, rfl, hvisit, hlast⟩
      · exact absurd hvisit (hlast visit hmem)

theorem sessionAfter_eq_none_iff :
    sessionAfter settings none history = none ↔ ∀ visit ∈ history, ¬Connects visit.2 := by
  constructor
  · intro hnone visit hmem hvisit
    obtain ⟨before, last, after, rfl, hlast, hafter⟩ := exists_last_connect ⟨visit, hmem, hvisit⟩
    rw [sessionAfter_of_last hlast hafter] at hnone
    cases hnone
  · intro h
    rw [sessionAfter_of_not_connects h]
    rfl

theorem initialized_sessionAfter_iff : (sessionAfter settings none history).any
    (·.initialized) = true ↔
    ∃ before visit after, history = before ++ visit :: after ∧ Connects visit.2 ∧
      (∀ later ∈ after, ¬Connects later.2) ∧ ∃ later ∈ after, Confirms later.2 := by
  constructor
  · intro h
    by_cases hconnects : ∃ visit ∈ history, Connects visit.2
    · obtain ⟨before, visit, after, rfl, hvisit, hafter⟩ := exists_last_connect hconnects
      rw [sessionAfter_of_last hvisit hafter] at h
      exact ⟨before, visit, after, rfl, hvisit, hafter, by simpa using h⟩
    · have hnone : ∀ visit ∈ history, ¬Connects visit.2 :=
        fun visit hmem hvisit => hconnects ⟨visit, hmem, hvisit⟩
      rw [sessionAfter_eq_none_iff.2 hnone] at h
      exact nomatch h
  · rintro ⟨before, visit, after, rfl, hvisit, hafter, hconfirms⟩
    rw [sessionAfter_of_last hvisit hafter]
    simpa using hconfirms

/-- The session of a fresh server is what its history says: absent until a request connects, and
then complete exactly if it was confirmed since the last one that did. No other request changes
it. -/
theorem session_of_history (settings : Settings) (history : List (FileTree × Request)) :
    (sessionAfter settings none history = none ↔ ∀ visit ∈ history, ¬Connects visit.2) ∧
    (∀ before visit after, history = before ++ visit :: after → Connects visit.2 →
      (∀ later ∈ after, ¬Connects later.2) →
        ∃ s, sessionAfter settings none history = some s ∧
          (s.initialized = true ↔ ∃ later ∈ after, Confirms later.2)) ∧
    (∀ tree session r, ¬Connects r → ¬Confirms r → (handle settings tree session r).1 = session) ∧
    ∀ tree requests, (handleAll settings tree none requests).1 =
      sessionAfter settings none (requests.map fun r => (tree, r)) := by
  refine ⟨sessionAfter_eq_none_iff, ?_, ?_, ?_⟩
  · rintro before visit after rfl hvisit hafter
    exact ⟨_, sessionAfter_of_last hvisit hafter none, by simp⟩
  · intro tree session r hconnects hconfirms
    exact handle_session_eq_self hconnects hconfirms
  · intro tree requests
    exact handleAll_session settings tree none requests

end Calculator.Server
