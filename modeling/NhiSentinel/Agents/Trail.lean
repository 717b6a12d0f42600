import NhiSentinel.Agents.Runs
import NhiSentinel.Pep.Mediation

/-!
# The trail of a run

What a run of an agent leaves behind: the events that it publishes, the enforcement that it
asks for and the calls of its handlers, with the course of a whole run in these terms.
-/

namespace NhiSentinel.Agents
open NhiSentinel.Base NhiSentinel.Pep NhiSentinel.Audit

/-! ### Observations -/

/-- The events that are published. -/
def published (t : List AgentEvent) : List AuditEvent :=
  t.filterMap fun
    | ⟨.publish event, _⟩ => some event
    | _ => none

/-- The calls of the enforcement point. -/
def enforcement (t : List AgentEvent) : List Event :=
  t.filterMap fun
    | ⟨.pep c, reply⟩ => some ⟨c, reply⟩
    | _ => none

/-- The token and the claims of an introspection that returned. -/
def introspected (t : List AgentEvent) : List (String × Value) :=
  t.filterMap fun
    | ⟨.introspect token, .ok claims⟩ => some (token, claims)
    | _ => none

/-- A call of a tool handler, its result or the text of its exception, and the state it left. -/
structure HandlerCall where
  toolKey : String
  state : AgentState
  outcome : Except String ToolResult
  left : AgentState

/-- The result in the state after the call. -/
def HandlerCall.result (call : HandlerCall) : ToolResult :=
  match call.outcome with
  | .ok result => result
  | .error _ => call.left.result

/-- The error in the state after the call. -/
def HandlerCall.error (call : HandlerCall) : Option String :=
  match call.outcome with
  | .ok _ => call.left.error
  | .error text => some text

/-- The event of the call. -/
def HandlerCall.event (call : HandlerCall) : AgentEvent :=
  ⟨.handler call.toolKey call.state, (call.outcome, call.left)⟩

/-- The calls of tool handlers. -/
def handled (t : List AgentEvent) : List HandlerCall :=
  t.filterMap fun
    | ⟨.handler toolKey state, (outcome, left)⟩ => some ⟨toolKey, state, outcome, left⟩
    | _ => none

/-- Nothing is published and no handler is called. -/
def Quiet (t : List AgentEvent) : Prop := published t = [] ∧ handled t = []

/-- What is published in two traces, one after the other. -/
@[simp] theorem published_append (t u : List AgentEvent) :
    published (t ++ u) = published t ++ published u := List.filterMap_append

/-- The calls of the enforcement point in two traces, one after the other. -/
@[simp] theorem enforcement_append (t u : List AgentEvent) :
    enforcement (t ++ u) = enforcement t ++ enforcement u := List.filterMap_append

/-- The tokens introspected in two traces, one after the other. -/
@[simp] theorem introspected_append (t u : List AgentEvent) :
    introspected (t ++ u) = introspected t ++ introspected u := List.filterMap_append

/-- The handlers called in two traces, one after the other. -/
@[simp] theorem handled_append (t u : List AgentEvent) :
    handled (t ++ u) = handled t ++ handled u := List.filterMap_append

private theorem quiet_append {t u : List AgentEvent} (ht : Quiet t) (hu : Quiet u) : Quiet
    (t ++ u) := by
  rw [Quiet, published_append, handled_append, ht.1, ht.2]
  exact hu

private theorem quiet_ofPep (u : List Event) : Quiet (u.map ofPep) := by
  simp [Quiet, published, handled, ofPep]

/-- The enforcement point introspects nothing. -/
@[simp] theorem introspected_ofPep (u : List Event) : introspected (u.map ofPep) = [] := by
  simp [introspected, ofPep]

/-- The calls of the enforcement point among those of the agent. -/
@[simp] theorem enforcement_ofPep (u : List Event) : enforcement (u.map ofPep) = u := by
  rw [enforcement, List.filterMap_map]
  exact List.filterMap_some

/-! ### Nodes -/

section
variable {rt : Runtime} {agent : BaseAgent} {s s' : Session} {t : List AgentEvent}
  {out : Except PyExn Unit}

/-- An exception with the name of no class of the enforcement point is one of a library. -/
theorem eq_other_of_exceptionName {e : PyExn} {name : String} (h : exceptionName e = name)
    (hd : name ≠ "PolicyDenialError") (ha : name ≠ "ApprovalRequiredError") : e = .other name := by
  cases e with
  | policyDenial => exact absurd h.symm hd
  | approvalRequired => exact absurd h.symm ha
  | other cls => exact congrArg PyExn.other h

/-- Fetching a token is quiet. -/
theorem Fetched.quiet (h : Fetched agent s t out s') : Quiet t := by
  cases h <;> exact ⟨rfl, rfl⟩

/-- A token that was fetched is in the state with its claims. -/
theorem Fetched.of_ok (h : Fetched agent s t (.ok ()) s') :
    ∃ token claims, s' = { s with state := s.state.withToken token claims } ∧
      introspected t = [(token, claims)] ∧ enforcement t = [] := by
  cases h with
  | fetched token claims => exact ⟨token, claims, rfl, rfl, rfl⟩

/-- A token that is not fetched is not introspected. -/
theorem Fetched.of_error {e : PyExn} (h : Fetched agent s t (.error e) s') :
    introspected t = [] := by
  cases h <;> rfl

/-- Describing an exception is quiet. -/
theorem Described.quiet {e : PyExn} {text : String} (h : Described e t text) : Quiet t := by
  cases h <;> exact ⟨rfl, rfl⟩

/-- A policy check is quiet. -/
theorem Checked.quiet (h : Checked rt agent s t out s') : Quiet t := by
  cases h with
  | unavailable | invalid => exact ⟨rfl, rfl⟩
  | allowed => exact quiet_ofPep _
  | refused _ _ _ _ _ _ hd => exact quiet_append (quiet_ofPep _) hd.quiet

/-- A policy check introspects nothing. -/
theorem Checked.introspected (h : Checked rt agent s t out s') : introspected t = [] := by
  cases h with
  | unavailable | invalid => rfl
  | allowed => exact introspected_ofPep _
  | refused _ _ _ _ _ _ hd =>
    rw [introspected_append, introspected_ofPep]
    cases hd <;> rfl

/-- A policy check writes a decision and an error, and keeps the arguments. -/
theorem Checked.kept (h : Checked rt agent s t out s') :
    s'.state.action = s.state.action ∧ s'.state.toolKey = s.state.toolKey ∧
      s'.state.taskId = s.state.taskId ∧ s'.state.resourceArn = s.state.resourceArn ∧
      s'.state.result = s.state.result := by
  cases h <;> exact ⟨rfl, rfl, rfl, rfl, rfl⟩

/-- A policy check that comes to a decision had a valid request for a tool of the registry. -/
theorem Checked.valid (h : Checked rt agent s t (.ok ()) s') {spec : ToolSpec}
    (hg : agent.registry.get s.state.toolKey = .ok spec) :
    actionRequest? agent spec s.state ≠ none := by
  cases h with
  | unavailable message hm => cases hg.symm.trans hm
  | allowed spec' hg' request hr | refused spec' hg' request hr =>
    cases hg.symm.trans hg'
    rw [hr]
    exact Option.some_ne_none _

/-- An execution leaves a message, or the result and the error of a call. -/
theorem Executed.called (h : Executed agent s t s') :
    (s.state.toolKey ∉ agent.toolHandlers ∧ t = [] ∧ s'.state.result = s.state.result ∧
      ∃ text, text ≠ "" ∧ s'.state.error = some text) ∨
    ∃ call : HandlerCall, s.state.toolKey ∈ agent.toolHandlers ∧
      call.toolKey = s.state.toolKey ∧ call.state = s.state ∧ t = [call.event] ∧
      s'.state.result = call.result ∧ s'.state.error = call.error := by
  cases h with
  | missing hn =>
    refine .inl ⟨hn, rfl, rfl, _, fun h ↦ ?_, rfl⟩
    have hl := congrArg String.length h
    rw [String.length_append] at hl
    cases hl
  | returned hm result left =>
    exact .inr ⟨⟨s.state.toolKey, s.state, .ok result, left⟩, hm, rfl, rfl, rfl, rfl, rfl⟩
  | raised hm text left =>
    exact .inr ⟨⟨s.state.toolKey, s.state, .error text, left⟩, hm, rfl, rfl, rfl, rfl, rfl⟩

/-- What follows a decision: nothing, or an execution and the audit of its result. -/
inductive Followed (rt : Runtime) (agent : BaseAgent) (s : Session) :
    List AgentEvent → Except PyExn Unit → Prop where
  | blocked (hr : routeAfterPolicy s.state ≠ .allowed) : Followed rt agent s [] (.ok ())
  | executed {t u : List AgentEvent} {s' : Session} {out : Except PyExn Unit}
      (hr : routeAfterPolicy s.state = .allowed) (he : Executed agent s t s')
      (ha : ResultAudited rt agent s'.state u out) : Followed rt agent s (t ++ u) out

private theorem Followed.unasked (h : Followed rt agent s t out) :
    introspected t = [] ∧ enforcement t = [] := by
  cases h with
  | blocked => exact ⟨rfl, rfl⟩
  | executed _ he ha =>
    rw [introspected_append, enforcement_append]
    constructor <;> cases he <;> cases ha <;> rfl

end

/-! ### Whole runs -/

/-- A run of an agent: its arguments, its calls, how it ends and what it leaves. -/
structure AgentRun (rt : Runtime) where
  agent : BaseAgent
  pep : PolicyEnforcementPoint
  args : RunArgs
  trace : List AgentEvent
  outcome : Except PyExn Unit
  last : Session
  ran : Py.Run (invoke rt agent) ⟨pep, args.initialState⟩ trace outcome last

namespace AgentRun

variable {rt : Runtime} (r : AgentRun rt)

/-- The request of the run: it has a token, its tool is in the registry, and the request is
valid. -/
def request? : Option ActionRequest := do
  let (token, claims) ← (introspected r.trace).head?
  let spec ← (r.agent.registry.get r.args.toolKey).toOption
  actionRequest? r.agent spec (r.args.initialState.withToken token claims)

/-- The enforcement of the run's request ends so. -/
def Enforced (out : Except PyExn Unit) : Prop :=
  ∃ request p, r.request? = some request ∧
    Py.Run (enforce rt) ⟨r.pep, request⟩ (enforcement r.trace) out p

/-- The event of the decision. -/
def decisionEvent? : Option AuditEvent := (published r.trace).head?

/-- The ways of the policy check, by the decision and the error that it writes. -/
inductive Judged : Option String → Option String → Prop where
  | refused (message : String) (hg : r.agent.registry.get r.args.toolKey = .error message) :
      Judged (some "DENY") (some message)
  | returned (he : r.Enforced (.ok ())) : Judged (some "ALLOW") none
  | raised (e : PyExn) (text : String) (he : r.Enforced (.error e)) :
      Judged (some (exceptionName e)) (some text)

/-- The ways of a run: no token, no valid request, or a decision that is published. -/
inductive Course : Prop where
  | unfetched (hi : introspected r.trace = []) (hq : Quiet r.trace)
  | invalid (token : String) (claims : Value) (hi : introspected r.trace = [(token, claims)])
      (spec : ToolSpec) (hg : r.agent.registry.get r.args.toolKey = .ok spec)
      (hr : actionRequest? r.agent spec (r.args.initialState.withToken token claims) = none)
      (hq : Quiet r.trace)
  | audited (token : String) (claims : Value) (before after : List AgentEvent)
      (checked : AgentState) (eventId : String) (timestamp : Nat)
      (ht : r.trace =
        before ++ ⟨.publish (decisionEvent r.agent checked eventId timestamp), ()⟩ :: after)
      (hi : introspected before = [(token, claims)]) (hq : Quiet before)
      (hv : ∀ spec, r.agent.registry.get r.args.toolKey = .ok spec →
        actionRequest? r.agent spec (r.args.initialState.withToken token claims) ≠ none)
      (ha : checked.action = r.args.toolKey) (hk : checked.toolKey = r.args.toolKey)
      (hs : checked.taskId = r.args.taskId) (hx : checked.resourceArn = r.args.resourceArn)
      (hr : checked.result = .other .null)
      (hj : r.Judged checked.decision checked.error) (p : PolicyEnforcementPoint)
      (hf : Followed rt r.agent
        ⟨p, checked.setContext "_decision_event_id" (.str eventId)⟩ after r.outcome)

/-- The replies determine how the enforcement ends. -/
theorem Enforced.unique {r : AgentRun rt} {out out' : Except PyExn Unit} (h : r.Enforced out)
    (h' : r.Enforced out') : out = out' := by
  obtain ⟨request, p, hr, he⟩ := h
  obtain ⟨request', p', hr', he'⟩ := h'
  cases hr.symm.trans hr'
  exact congrArg Prod.fst (Prog.Run.unique he he')

/-- A request is for a tool of the registry, with its action. -/
theorem registered {r : AgentRun rt} {request : ActionRequest} (h : r.request? = some request) :
    ∃ spec, r.agent.registry.get r.args.toolKey = .ok spec ∧ request.action = spec.action := by
  rw [request?] at h
  obtain ⟨⟨token, claims⟩, -, h⟩ := Option.bind_eq_some_iff.mp h
  obtain ⟨spec, hg, h⟩ := Option.bind_eq_some_iff.mp h
  cases hx : r.agent.registry.get r.args.toolKey with
  | error message =>
    rw [hx] at hg
    cases hg
  | ok spec' =>
    rw [hx] at hg
    cases hg
    exact ⟨spec, rfl, (actionRequest?_eq_some h).2.1⟩

/-- A tool that the registry refuses is not enforced. -/
theorem Enforced.get_ne_error {r : AgentRun rt} {out : Except PyExn Unit} (h : r.Enforced out)
    (message : String) : r.agent.registry.get r.args.toolKey ≠ .error message := by
  obtain ⟨request, _, hr, -⟩ := h
  obtain ⟨spec, hs, -⟩ := registered hr
  rw [hs]
  exact nofun

/-- An enforcement that returned is judged so. -/
theorem Judged.of_ok {r : AgentRun rt} {decision error : Option String}
    (h : r.Judged decision error) (he : r.Enforced (.ok ())) :
    decision = some "ALLOW" ∧ error = none := by
  cases h with
  | refused message hg => exact absurd hg (he.get_ne_error message)
  | returned => exact ⟨rfl, rfl⟩
  | raised e text hx => cases he.unique hx

/-- An exception of an enforcement is judged by its name. -/
theorem Judged.of_error {r : AgentRun rt} {decision error : Option String} {e : PyExn}
    (h : r.Judged decision error) (he : r.Enforced (.error e)) :
    decision = some (exceptionName e) := by
  cases h with
  | refused message hg => exact absurd hg (he.get_ne_error message)
  | returned hx => cases he.unique hx
  | raised e' text hx =>
    cases he.unique hx
    rfl

/-- The request of a run with a token is that of its tool. -/
theorem request?_eq {r : AgentRun rt} {token : String} {claims : Value}
    (hi : introspected r.trace = [(token, claims)]) {spec : ToolSpec}
    (hg : r.agent.registry.get r.args.toolKey = .ok spec) :
    r.request? = actionRequest? r.agent spec (r.args.initialState.withToken token claims) := by
  rw [request?, hi, hg]
  rfl

private theorem judged_of_checked {r : AgentRun rt} {token : String} {claims : Value}
    {t : List AgentEvent} {s : Session}
    (h : Checked rt r.agent ⟨r.pep, r.args.initialState.withToken token claims⟩ t (.ok ()) s)
    (hi : introspected r.trace = [(token, claims)]) (he : enforcement r.trace = enforcement t) :
    r.Judged s.state.decision s.state.error := by
  cases h with
  | unavailable message hg => exact .refused message hg
  | allowed spec hg request hr hx =>
    rw [enforcement_ofPep] at he
    exact .returned ⟨request, _, (request?_eq hi hg).trans hr, he ▸ hx⟩
  | refused spec hg request hr e hx hd =>
    have hv : ∀ {v : List AgentEvent} {text : String}, Described e v text → enforcement v = [] := by
      intro v text hd
      cases hd <;> rfl
    rw [enforcement_append, enforcement_ofPep, hv hd, List.append_nil] at he
    exact .raised e _ ⟨request, _, (request?_eq hi hg).trans hr, he ▸ hx⟩

/-- A run that comes to a decision, from what its nodes did. -/
theorem course_of_decision {r : AgentRun rt} {t u after : List AgentEvent}
    {s₁ s₂ : Session} (hf : Fetched r.agent ⟨r.pep, r.args.initialState⟩ t (.ok ()) s₁)
    (hc : Checked rt r.agent s₁ u (.ok ()) s₂) {eventId : String} {timestamp : Nat}
    (ht : r.trace = t ++ (u ++ (decisionAudit r.agent s₂.state eventId timestamp ++ after)))
    (ha : Followed rt r.agent
      { s₂ with state := s₂.state.setContext "_decision_event_id" (.str eventId) } after
      r.outcome) :
    r.Course := by
  obtain ⟨token, claims, rfl, hi, he⟩ := hf.of_ok
  obtain ⟨haction, hkey, htask, harn, hresult⟩ := hc.kept
  have hd : introspected (decisionAudit r.agent s₂.state eventId timestamp) = [] := rfl
  have hd' : enforcement (decisionAudit r.agent s₂.state eventId timestamp) = [] := rfl
  have hq : Quiet ([⟨.uuid4, eventId⟩, ⟨.clock, timestamp⟩] : List AgentEvent) := ⟨rfl, rfl⟩
  have hi' : introspected r.trace = [(token, claims)] := by
    simp [ht, hi, hc.introspected, hd, ha.unasked.1]
  have he' : enforcement r.trace = enforcement u := by
    simp [ht, he, hd', ha.unasked.2]
  apply Course.audited token claims (t ++ (u ++ [⟨.uuid4, eventId⟩, ⟨.clock, timestamp⟩])) after
    s₂.state eventId timestamp
  · simp [ht, decisionAudit]
  · rw [introspected_append, introspected_append, hi, hc.introspected]
    rfl
  · exact quiet_append hf.quiet (quiet_append hc.quiet hq)
  · exact fun spec hg ↦ hc.valid hg
  · exact haction
  · exact hkey
  · exact htask
  · exact harn
  · exact hresult
  · exact judged_of_checked hc hi' he'
  · exact ha

/-- Every run takes one of these ways. -/
theorem course (r : AgentRun rt) : r.Course := by
  have h := invoke_run r.ran
  generalize ht : r.trace = trace, ho : r.outcome = outcome, hl : r.last = last at h
  cases h with
  | unfetched hf => exact .unfetched (ht ▸ hf.of_error) (ht ▸ hf.quiet)
  | unchecked hf hc =>
    obtain ⟨token, claims, rfl, hi, -⟩ := hf.of_ok
    cases hc with
    | invalid spec hg hr =>
      rw [List.append_nil] at ht
      exact .invalid token claims (ht ▸ hi) spec hg hr (ht ▸ hf.quiet)
  | blocked hf hc eventId timestamp hr =>
    apply course_of_decision hf hc
    · rw [List.append_nil]
      exact ht
    · exact ho ▸ .blocked hr
  | executed hf hc eventId timestamp hr he ha =>
    exact course_of_decision hf hc ht (ho ▸ .executed hr he ha)

/-- The run under an environment. -/
def exec (rt : Runtime) (env : (c : AgentCall) → c.Reply) (agent : BaseAgent)
    (pep : PolicyEnforcementPoint) (args : RunArgs) : AgentRun rt where
  agent := agent
  pep := pep
  args := args
  trace := (Py.exec (fun _ ↦ env) (invoke rt agent) ⟨pep, args.initialState⟩).1
  outcome := (Py.exec (fun _ ↦ env) (invoke rt agent) ⟨pep, args.initialState⟩).2.1
  last := (Py.exec (fun _ ↦ env) (invoke rt agent) ⟨pep, args.initialState⟩).2.2
  ran := Py.run_exec ..

end AgentRun

/-! ### Reading an object -/

/-- An agent that may read objects. -/
def readingAgent : BaseAgent where
  agentId := "agent-infra-001"
  agentType := .infra
  registry := .ofScopes ["cloud:s3:read"]
  sourceIp := "10.0.1.10"
  toolHandlers := ["s3_get_object"]

/-- The arguments for an object of a bucket. -/
def objectArgs : RunArgs where
  toolKey := "s3_get_object"
  resourceArn := "arn:aws:s3:::bucket/key"
  taskId := "task-001"
  environment := "staging"

/-- Services that agree, but for the policy engine and the handler, which are as given. -/
def answering (decision : HttpReply) (outcome : Except String ToolResult) :
    (c : AgentCall) → c.Reply
  | .getToken .. => .ok "token"
  | .introspect _ => .ok (.obj [])
  | .pep c => services decision 0 [] c
  | .exceptionText _ => ""
  | .uuid4 => "00000000-0000-4000-8000-000000000000"
  | .clock => (0 : Nat)
  | .publish _ => ()
  | .handler _ state => (outcome, state)

/-- The run of the reading agent on these answers. -/
def objectRun (decision : HttpReply) (outcome : Except String ToolResult) :
    AgentRun asciiRuntime :=
  .exec asciiRuntime (answering decision outcome) readingAgent ⟨"http://localhost:8181", false⟩
    objectArgs

/-- The run of a reading that is allowed and returns. -/
def allowedRun : AgentRun asciiRuntime := objectRun (decided "ALLOW") (.ok (.other .null))

end NhiSentinel.Agents
