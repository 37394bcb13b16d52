import Calculator.Proofs.Json.Members
import Calculator.Proofs.Server.Session
import Calculator.Server.Web

/-!
# Calls over the web

A request carries a call if it is posted to the path of calls, as JSON, and is one. It is then
answered as the session answers the call, and no other request changes the session. So the session
of a web server is that of the calls among its requests, and its root tells whether the client that
connected last is ready.
-/

namespace Calculator.Server.Web

variable {settings : Settings} {tree : FileTree} {endpoint : HttpEndpoint}
  {now : String} {session : Option Session} {r : Request} {call : Rpc.Request}

/-- The call that a request carries. -/
def call? (endpoint : HttpEndpoint) (r : Request) : Option Rpc.Request :=
  if r.method = "POST" ∧ path r.target = endpoint.rpcPath ∧
      (r.contentType.bind MediaType.parse?).any (·.isJson) = true then
    (Rpc.Request.parse r.body.toList).toOption
  else none

def origins (endpoint : HttpEndpoint) : Option String :=
  if endpoint.enableCors then some "*" else none

theorem post_of_call (hjson : (r.contentType.bind MediaType.parse?).any (·.isJson) = true)
    (hcall : Rpc.Request.parse r.body.toList = .ok call) (settings : Settings) (tree : FileTree)
    (session : Option Session) : post settings tree session r =
      ((handle settings tree session call).1,
        respond 200 (.json (handle settings tree session call).2.document)) := by
  simp only [post, hjson, if_true, hcall]

theorem route_eq_rpc_iff {method path : String} :
    route endpoint method path = .ok .rpc ↔ method = "POST" ∧ path = endpoint.rpcPath := by
  simp only [route]
  split_ifs <;> simp_all

theorem answer_of_call (h : call? endpoint r = some call) (settings : Settings)
    (tree : FileTree) (now : String)
    (session : Option Session) : answer settings tree endpoint now session r =
      ((handle settings tree session call).1,
        respond 200 (.json (handle settings tree session call).2.document)) := by
  unfold call? at h
  split_ifs at h with hposted
  obtain ⟨hmethod, hpath, hjson⟩ := hposted
  have hcall : Rpc.Request.parse r.body.toList = .ok call := by
    cases hparse : Rpc.Request.parse r.body.toList <;> simp_all [Except.toOption]
  simp only [answer, route_eq_rpc_iff.2 ⟨hmethod, hpath⟩]
  exact post_of_call hjson hcall settings tree session

theorem post_of_no_call (h : ¬((r.contentType.bind MediaType.parse?).any (·.isJson) = true ∧
      (Rpc.Request.parse r.body.toList).toOption.isSome = true)) (settings : Settings)
      (tree : FileTree)
    (session : Option Session) :
    (post settings tree session r).1 = session ∧
    (post settings tree session r).2.status ∈ [400, 415, 422] := by
  unfold post
  split_ifs with hjson
  · cases hparse : Rpc.Request.parse r.body.toList with
    | ok call => exact absurd ⟨hjson, by rw [hparse]; rfl⟩ h
    | error fault =>
      dsimp only
      split_ifs <;> exact ⟨rfl, by simp [respond]⟩
  · exact ⟨rfl, by simp [respond]⟩

theorem route_post (endpoint : HttpEndpoint) (path : String) :
    route endpoint "POST" path = .ok .rpc ∨
    ∃ status ∈ [404, 405], route endpoint "POST" path = .error status := by
  simp only [route]
  split_ifs <;> simp_all

theorem answer_of_no_call (h : call? endpoint r = none) (settings : Settings)
    (tree : FileTree) (now : String)
    (session : Option Session) : (answer settings tree endpoint now session r).1 = session ∧
      (r.method = "POST" →
        (answer settings tree endpoint now session r).2.status ∈ [400, 404, 405, 415, 422]) := by
  cases hroute : route endpoint r.method (path r.target) with
  | error status =>
    simp only [answer, hroute]
    refine ⟨trivial, fun hmethod => ?_⟩
    rw [hmethod] at hroute
    obtain hrpc | ⟨status', hstatus, hrefused⟩ := route_post endpoint (path r.target)
    · exact nomatch hroute.symm.trans hrpc
    · cases hroute.symm.trans hrefused
      exact (by decide : [404, 405] ⊆ [400, 404, 405, 415, 422]) hstatus
  | ok route =>
    cases route with
    | rpc =>
      have hposted := route_eq_rpc_iff.1 hroute
      have hcall : ¬((r.contentType.bind MediaType.parse?).any (·.isJson) = true ∧
          (Rpc.Request.parse r.body.toList).toOption.isSome = true) := by
        rintro ⟨hjson, hparse⟩
        rw [call?, if_pos ⟨hposted.1, hposted.2, hjson⟩] at h
        rw [h] at hparse
        exact nomatch hparse
      obtain ⟨hsession, hstatus⟩ := post_of_no_call hcall settings tree session
      simp only [answer, hroute]
      exact ⟨hsession, fun _ => (by decide : [400, 415, 422] ⊆ [400, 404, 405, 415, 422]) hstatus⟩
    | health | root =>
      simp only [answer, hroute]
      refine ⟨trivial, fun hmethod => ?_⟩
      rw [hmethod] at hroute
      obtain hrpc | ⟨_, _, hrefused⟩ := route_post endpoint (path r.target)
      · exact nomatch hroute.symm.trans hrpc
      · exact nomatch hroute.symm.trans hrefused

theorem call?_of_ne_post (h : r.method ≠ "POST") : call? endpoint r = none :=
  if_neg fun hposted => h hposted.1

theorem allowOrigin_post (settings : Settings) (tree : FileTree) (session : Option Session)
    (r : Request) :
    (post settings tree session r).2.allowOrigin = none := by
  unfold post
  split_ifs
  · cases Rpc.Request.parse r.body.toList with
    | ok call => rfl
    | error fault =>
      dsimp only
      split_ifs <;> rfl
  · rfl

theorem allowOrigin_answer (settings : Settings) (tree : FileTree) (endpoint : HttpEndpoint)
    (now : String) (session : Option Session) (r : Request) :
    (answer settings tree endpoint now session r).2.allowOrigin = none := by
  unfold answer
  dsimp only
  split
  · exact allowOrigin_post settings tree session r
  all_goals rfl

theorem serve_eq_answer (h : endpoint.enableCors = true → r.method ≠ "OPTIONS")
    (settings : Settings) (tree : FileTree) (now : String) (session : Option Session) :
      serve settings tree endpoint now session r =
      ((answer settings tree endpoint now session r).1,
        { (answer settings tree endpoint now session r).2
          with allowOrigin := origins endpoint }) := by
  unfold serve origins
  split_ifs with hcors hoptions
  · exact absurd hoptions (h hcors)
  · rfl
  · rw [← allowOrigin_answer settings tree endpoint now session r]

theorem allowOrigin_serve (settings : Settings) (tree : FileTree) (endpoint : HttpEndpoint)
    (now : String) (session : Option Session) (r : Request) :
    (serve settings tree endpoint now session r).2.allowOrigin = origins endpoint := by
  by_cases hoptions : endpoint.enableCors = true → r.method ≠ "OPTIONS"
  · rw [serve_eq_answer hoptions]
  · rw [Classical.not_imp, not_not] at hoptions
    simp only [serve, origins, hoptions.1, hoptions.2, if_true]

theorem serve_of_call (h : call? endpoint r = some call) (settings : Settings)
    (tree : FileTree) (now : String)
    (session : Option Session) : serve settings tree endpoint now session r =
      ((handle settings tree session call).1,
        ⟨200, .json (handle settings tree session call).2.document, origins endpoint⟩) := by
  have hoptions : r.method ≠ "OPTIONS" := by
    intro hmethod
    rw [call?_of_ne_post (by rw [hmethod]; decide)] at h
    exact nomatch h
  rw [serve_eq_answer fun _ => hoptions, answer_of_call h]
  rfl

theorem serve_session (settings : Settings) (tree : FileTree) (endpoint : HttpEndpoint)
    (now : String)
    (session : Option Session) (r : Request) : (serve settings tree endpoint now session r).1 =
      (call? endpoint r).elim session fun call => (handle settings tree session call).1 := by
  cases hcall : call? endpoint r with
  | some call => rw [serve_of_call hcall, Option.elim_some]
  | none =>
    by_cases hoptions : endpoint.enableCors = true → r.method ≠ "OPTIONS"
    · rw [serve_eq_answer hoptions]
      exact (answer_of_no_call hcall settings tree now session).1
    · rw [Classical.not_imp, not_not] at hoptions
      simp only [serve, hoptions.1, hoptions.2, if_true, Option.elim_none]

theorem status_of_post (h : r.method = "POST") (settings : Settings)
    (tree : FileTree) (endpoint : HttpEndpoint) (now : String) (session : Option Session) :
    (serve settings tree endpoint now session r).2.status = 200 ↔
    (call? endpoint r).isSome = true := by
  cases hcall : call? endpoint r with
  | some call => exact iff_of_true (by rw [serve_of_call hcall]) rfl
  | none =>
    have hoptions : r.method ≠ "OPTIONS" := by
      rw [h]
      decide
    have hstatus := (answer_of_no_call hcall settings tree now session).2 h
    rw [serve_eq_answer fun _ => hoptions]
    refine iff_of_false (fun h200 => ?_) (by simp)
    rw [h200] at hstatus
    exact absurd hstatus (by decide)

structure Visit where
  tree : FileTree
  now : String
  request : Request

def sessionAfterVisits (settings : Settings) (endpoint : HttpEndpoint) (session : Option Session)
    (visits : List Visit) : Option Session :=
  visits.foldl (fun session v => (serve settings v.tree endpoint v.now session v.request).1) session

def calls (endpoint : HttpEndpoint) (visits : List Visit) : List (FileTree × Rpc.Request) :=
  visits.filterMap fun v => (call? endpoint v.request).map fun call => (v.tree, call)

/-- The session is that of the calls among the requests. -/
theorem sessionAfterVisits_eq (settings : Settings) (endpoint : HttpEndpoint)
    (session : Option Session)
    (visits : List Visit) : sessionAfterVisits settings endpoint session visits =
      sessionAfter settings session (calls endpoint visits) := by
  induction visits generalizing session with
  | nil => rfl
  | cons v visits ih =>
    rw [sessionAfterVisits, List.foldl_cons, serve_session, calls, List.filterMap_cons]
    cases call? endpoint v.request with
    | none => exact ih session
    | some call => exact ih (handle settings v.tree session call).1

/-- The root tells whether the client that connected last is ready. -/
theorem content_root (hmethod : r.method = "GET") (hpath : path r.target = "/")
    (settings : Settings)
    (tree : FileTree) (endpoint : HttpEndpoint) (now : String) (visits : List Visit) :
    ∃ v b, (serve settings tree endpoint now (sessionAfterVisits settings endpoint none visits)
      r).2.content =
        .json v ∧ v.get? "initialized" = some (.bool b) ∧
      (b = true ↔ ∃ before visit after, calls endpoint visits = before ++ visit :: after ∧
        Connects visit.2 ∧
        (∀ later ∈ after, ¬Connects later.2) ∧ ∃ later ∈ after, Confirms later.2) := by
  have hoptions : r.method ≠ "OPTIONS" := by
    rw [hmethod]
    decide
  have hroute : route endpoint r.method (path r.target) = .ok .root := by
    rw [hmethod, hpath]
    simp [route]
  have hhead : r.method ≠ "HEAD" := by
    rw [hmethod]
    decide
  rw [serve_eq_answer fun _ => hoptions, sessionAfterVisits_eq]
  simp only [answer, hroute, respond, if_neg hhead]
  refine ⟨_, (sessionAfter settings none (calls endpoint visits)).any (·.initialized), rfl, ?_,
    initialized_sessionAfter_iff⟩
  apply Json.get?_ofMembers <;> simp

end Calculator.Server.Web
