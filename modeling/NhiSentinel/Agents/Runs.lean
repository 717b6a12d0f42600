import NhiSentinel.Agents.Agent
import NhiSentinel.Pep.Outcome

/-!
# Runs of the agent

What each node of the graph can do, said once, and what a whole run can do: the calls it
makes, the state it leaves and the exception that escapes, under every behaviour of its
services.
-/

namespace NhiSentinel.Agents
open NhiSentinel.Base NhiSentinel.Pep NhiSentinel.Audit

variable {rt : Runtime} {agent : BaseAgent} {s s' : Session} {t : List AgentEvent}
  {out : Except PyExn Unit}

/-- A call returns its reply. -/
theorem run_ask {α : Type} {c : AgentCall} {h : c.Reply = α} {x : Except PyExn α} :
    Py.Run (ask c h) s t x s' ↔ ∃ a, t = [⟨c, cast h.symm a⟩] ∧ x = .ok a ∧ s' = s := by
  simp only [ask, Py.run_ask_bind, Py.run_pure]
  constructor
  · rintro ⟨r, _, rfl, rfl, rfl, rfl⟩
    exact ⟨cast h r, by simp, rfl, rfl⟩
  · rintro ⟨a, rfl, rfl, rfl⟩
    exact ⟨_, [], rfl, rfl, by simp, rfl⟩

/-- What follows a call runs on its reply. -/
theorem run_ask_bind {α β : Type} {c : AgentCall} {h : c.Reply = α} {f : α → Node β}
    {x : Except PyExn β} :
    Py.Run (ask c h >>= f) s t x s' ↔
      ∃ a t', t = ⟨c, cast h.symm a⟩ :: t' ∧ Py.Run (f a) s t' x s' := by
  rw [Py.run_bind]
  simp only [run_ask]
  constructor
  · rintro (⟨e, ⟨a, -, he, -⟩, -⟩ | ⟨a, _, t₂, _, rfl, ⟨b, rfl, hb, rfl⟩, hf⟩)
    · cases he
    · cases hb
      exact ⟨a, t₂, rfl, hf⟩
  · rintro ⟨a, t', rfl, hf⟩
    exact .inr ⟨a, _, t', s, rfl, ⟨a, rfl, rfl, rfl⟩, hf⟩

/-- An update of the state asks nothing. -/
@[simp] theorem run_setState {f : AgentState → AgentState} :
    Py.Run (setState f) s t out s' ↔ t = [] ∧ out = .ok () ∧ s' = { s with state := f s.state } :=
  Py.run_update

/-- What follows an update of the state runs from the new one. -/
@[simp] theorem run_setState_bind {α : Type} {g : AgentState → AgentState} {f : Unit → Node α}
    {x : Except PyExn α} :
    Py.Run (setState g >>= f) s t x s' ↔ Py.Run (f ()) { s with state := g s.state } t x s' :=
  Py.run_update_bind

/-! ### Nodes -/

/-- The calls for a token, with the exception that stopped them. -/
inductive Fetched (agent : BaseAgent) (s : Session) :
    List AgentEvent → Except PyExn Unit → Session → Prop where
  | tokenFailed (cls : String) :
      Fetched agent s [⟨.getToken s.state.taskId s.state.environment agent.sourceIp, .error cls⟩]
        (.error (.other cls)) s
  | introspectFailed (token cls : String) :
      Fetched agent s [⟨.getToken s.state.taskId s.state.environment agent.sourceIp, .ok token⟩,
        ⟨.introspect token, .error cls⟩] (.error (.other cls)) s
  | fetched (token : String) (claims : Value) :
      Fetched agent s [⟨.getToken s.state.taskId s.state.environment agent.sourceIp, .ok token⟩,
        ⟨.introspect token, .ok claims⟩] (.ok ())
        { s with state := s.state.withToken token claims }

/-- A token is fetched and introspected, or the first exception stops the run. -/
theorem fetchToken_run (h : Py.Run (fetchToken agent) s t out s') : Fetched agent s t out s' := by
  simp only [fetchToken, getToken, introspect, Py.run_read_bind, run_ask_bind, cast_eq] at h
  obtain ⟨acquired, t, rfl, h⟩ := h
  cases acquired with
  | error cls =>
    simp only [Except.mapError, Py.run_ofExcept_error_bind] at h
    obtain ⟨rfl, rfl, rfl⟩ := h
    exact .tokenFailed cls
  | ok token =>
    simp only [Except.mapError, Py.run_ofExcept_ok_bind, run_ask_bind, cast_eq] at h
    obtain ⟨introspected, t, rfl, h⟩ := h
    cases introspected with
    | error cls =>
      simp only [Py.run_ofExcept_error_bind] at h
      obtain ⟨rfl, rfl, rfl⟩ := h
      exact .introspectFailed token cls
    | ok claims =>
      simp only [Py.run_ofExcept_ok_bind, run_setState] at h
      obtain ⟨rfl, rfl, rfl⟩ := h
      exact .fetched token claims

/-- The text of an exception, and the call that gives it for one of a library. -/
inductive Described : PyExn → List AgentEvent → String → Prop where
  | denial (action reason policyRef : String) :
      Described (.policyDenial action reason policyRef) []
        s!"DENY [{policyRef}] — {action}: {reason}"
  | approval (action resourceArn requestId : String) :
      Described (.approvalRequired action resourceArn requestId) []
        s!"REQUIRE_APPROVAL — {action} on {resourceArn} (request_id={requestId})"
  | other (cls text : String) : Described (.other cls) [⟨.exceptionText cls, text⟩] text

private theorem exceptionText_run {e : PyExn} {x : Except PyExn String}
    (h : Py.Run (exceptionText e) s t x s') :
    s' = s ∧ ∃ text, x = .ok text ∧ Described e t text := by
  cases e with
  | policyDenial action reason policyRef =>
    simp only [exceptionText, Py.run_pure] at h
    obtain ⟨rfl, rfl, rfl⟩ := h
    exact ⟨rfl, _, rfl, .denial ..⟩
  | approvalRequired action resourceArn requestId =>
    simp only [exceptionText, Py.run_pure] at h
    obtain ⟨rfl, rfl, rfl⟩ := h
    exact ⟨rfl, _, rfl, .approval ..⟩
  | other cls =>
    simp only [exceptionText, run_ask, cast_eq] at h
    obtain ⟨text, rfl, rfl, rfl⟩ := h
    exact ⟨rfl, _, rfl, .other ..⟩

/-- The calls of the enforcement point within a run are those of a run of its own. -/
theorem tryEnforce_run {request : ActionRequest} {x : Except PyExn (Except PyExn Unit)}
    (h : Py.Run (tryEnforce rt request) s t x s') :
    ∃ u out p, Py.Run (enforce rt) ⟨s.pep, request⟩ u out p ∧ t = u.map ofPep ∧ x = .ok out ∧
      s' = { s with pep := p.pep } := by
  rw [Py.Run, tryEnforce, Prog.run_bind] at h
  obtain ⟨t₁, ⟨out, p⟩, t₂, rfl, h₁, h₂⟩ := h
  obtain ⟨u, hu, hf⟩ := Prog.run_embed _ _ h₁
  have ht : t₁ = u.map ofPep := by
    clear hu h₁
    induction hf with
    | nil => rfl
    | cons hd _ ih =>
      obtain ⟨r, rfl, hr⟩ := hd
      rw [List.map_cons, ← ih, ofPep, hr]
  rw [Prog.run_done] at h₂
  obtain ⟨rfl, h₂⟩ := h₂
  cases h₂
  exact ⟨u, out, p, hu, by rw [List.append_nil, ht], rfl, rfl⟩

/-- The ways of a policy check: no such tool, no valid request, or an enforcement whose
exception is kept as the decision. -/
inductive Checked (rt : Runtime) (agent : BaseAgent) (s : Session) :
    List AgentEvent → Except PyExn Unit → Session → Prop where
  | unavailable (message : String) (hg : agent.registry.get s.state.toolKey = .error message) :
      Checked rt agent s [] (.ok ())
        { s with state := { s.state with decision := some "DENY", error := some message } }
  | invalid (spec : ToolSpec) (hg : agent.registry.get s.state.toolKey = .ok spec)
      (hr : actionRequest? agent spec s.state = none) :
      Checked rt agent s [] (.error (.other "ValidationError")) s
  | allowed (spec : ToolSpec) (hg : agent.registry.get s.state.toolKey = .ok spec)
      (request : ActionRequest) (hr : actionRequest? agent spec s.state = some request)
      {u : List Event} {p : State} (he : Py.Run (enforce rt) ⟨s.pep, request⟩ u (.ok ()) p) :
      Checked rt agent s (u.map ofPep) (.ok ())
        { pep := p.pep
          state := { s.state.setContext "_action_request" request.dump with
            decision := some "ALLOW" } }
  | refused (spec : ToolSpec) (hg : agent.registry.get s.state.toolKey = .ok spec)
      (request : ActionRequest) (hr : actionRequest? agent spec s.state = some request)
      {u : List Event} {p : State} (e : PyExn)
      (he : Py.Run (enforce rt) ⟨s.pep, request⟩ u (.error e) p) {v : List AgentEvent}
      {text : String} (hd : Described e v text) :
      Checked rt agent s (u.map ofPep ++ v) (.ok ())
        { pep := p.pep
          state := { s.state.setContext "_action_request" request.dump with
            decision := some (exceptionName e), error := some text } }

private theorem policyCheck_run (h : Py.Run (policyCheck rt agent) s t out s') :
    Checked rt agent s t out s' := by
  simp only [policyCheck, Py.run_read_bind] at h
  cases hg : agent.registry.get s.state.toolKey with
  | error message =>
    simp only [hg, run_setState] at h
    obtain ⟨rfl, rfl, rfl⟩ := h
    exact .unavailable message hg
  | ok spec =>
    cases hr : actionRequest? agent spec s.state with
    | none =>
      simp only [hg, hr, Py.run_raise] at h
      obtain ⟨rfl, rfl, rfl⟩ := h
      exact .invalid spec hg hr
    | some request =>
      simp only [hg, hr, run_setState_bind] at h
      rw [Py.run_bind] at h
      rcases h with ⟨e, h, -⟩ | ⟨x, t₁, t₂, s₁, rfl, h₁, h₂⟩
      · obtain ⟨u, out, p, -, -, hx, -⟩ := tryEnforce_run h
        cases hx
      obtain ⟨u, out', p, he, rfl, hx, rfl⟩ := tryEnforce_run h₁
      cases hx
      cases x with
      | ok =>
        simp only [run_setState] at h₂
        obtain ⟨rfl, rfl, rfl⟩ := h₂
        rw [List.append_nil]
        exact .allowed spec hg request hr he
      | error e =>
        simp only [Py.run_bind] at h₂
        rcases h₂ with ⟨e', h₂, -⟩ | ⟨text, v, w, s₂, rfl, h₂, h₃⟩
        · obtain ⟨-, text, hx, -⟩ := exceptionText_run h₂
          cases hx
        obtain ⟨rfl, text', hx, hd⟩ := exceptionText_run h₂
        cases hx
        simp only [run_setState] at h₃
        obtain ⟨rfl, rfl, rfl⟩ := h₃
        rw [List.append_nil]
        exact .refused spec hg request hr e he hd

/-- The calls of the audit of a decision. -/
def decisionAudit (agent : BaseAgent) (state : AgentState) (eventId : String) (timestamp : Nat) :
    List AgentEvent :=
  [⟨.uuid4, eventId⟩, ⟨.clock, timestamp⟩,
    ⟨.publish (decisionEvent agent state eventId timestamp), ()⟩]

/-- A decision is published, and its identifier kept. -/
theorem auditDecision_run (h : Py.Run (auditDecision agent) s t out s') :
    ∃ eventId timestamp, t = decisionAudit agent s.state eventId timestamp ∧ out = .ok () ∧
      s' = { s with state := s.state.setContext "_decision_event_id" (.str eventId) } := by
  simp only [auditDecision, uuid4, now, publish, Py.run_read_bind, run_ask_bind, cast_eq,
    run_setState] at h
  obtain ⟨eventId, _, rfl, timestamp, _, rfl, ⟨⟩, _, rfl, rfl, rfl, rfl⟩ := h
  exact ⟨eventId, timestamp, rfl, rfl, rfl⟩

/-- The ways of the audit of a result: one that is no valid field, or an event. -/
inductive ResultAudited (rt : Runtime) (agent : BaseAgent) (state : AgentState) :
    List AgentEvent → Except PyExn Unit → Prop where
  | invalid (hv : state.result.validate? = none) (eventId : String) (timestamp : Nat) :
      ResultAudited rt agent state [⟨.uuid4, eventId⟩, ⟨.clock, timestamp⟩]
        (.error (.other "ValidationError"))
  | published (executionResult : Option (List (String × Value)))
      (hv : state.result.validate? = some executionResult) (eventId : String) (timestamp : Nat) :
      ResultAudited rt agent state [⟨.uuid4, eventId⟩, ⟨.clock, timestamp⟩,
        ⟨.publish (resultEvent rt agent state executionResult eventId timestamp), ()⟩] (.ok ())

/-- A result is published, if it is valid. -/
theorem auditResult_run (h : Py.Run (auditResult rt agent) s t out s') :
    s' = s ∧ ResultAudited rt agent s.state t out := by
  simp only [auditResult, uuid4, now, publish, Py.run_read_bind, run_ask_bind, cast_eq] at h
  obtain ⟨eventId, _, rfl, timestamp, _, rfl, h⟩ := h
  split at h
  · next hv =>
    rw [Py.run_raise] at h
    obtain ⟨rfl, rfl, rfl⟩ := h
    exact ⟨rfl, .invalid hv eventId timestamp⟩
  · next executionResult hv =>
    simp only [run_ask, cast_eq] at h
    obtain ⟨⟨⟩, rfl, rfl, rfl⟩ := h
    exact ⟨rfl, .published executionResult hv eventId timestamp⟩

/-- The ways of an execution: no handler, or one call of it. -/
inductive Executed (agent : BaseAgent) (s : Session) : List AgentEvent → Session → Prop where
  | missing (hn : s.state.toolKey ∉ agent.toolHandlers) :
      Executed agent s [] { s with state := { s.state with
        error := some s!"No handler registered for tool '{s.state.toolKey}'" } }
  | returned (hm : s.state.toolKey ∈ agent.toolHandlers) (result : ToolResult) (left : AgentState) :
      Executed agent s [⟨.handler s.state.toolKey s.state, (.ok result, left)⟩]
        { s with state := { left with result := result } }
  | raised (hm : s.state.toolKey ∈ agent.toolHandlers) (text : String) (left : AgentState) :
      Executed agent s [⟨.handler s.state.toolKey s.state, (.error text, left)⟩]
        { s with state := { left with error := some text } }

/-- Executing a tool always returns. -/
theorem executeTool_run (h : Py.Run (executeTool agent) s t out s') :
    out = .ok () ∧ Executed agent s t s' := by
  simp only [executeTool, Py.run_read_bind] at h
  split at h
  · next hm =>
    simp only [callHandler, run_ask_bind, cast_eq] at h
    obtain ⟨⟨reply, left⟩, t, rfl, h⟩ := h
    cases reply with
    | ok result =>
      simp only [run_setState] at h
      obtain ⟨rfl, rfl, rfl⟩ := h
      exact ⟨rfl, .returned hm result left⟩
    | error text =>
      simp only [run_setState] at h
      obtain ⟨rfl, rfl, rfl⟩ := h
      exact ⟨rfl, .raised hm text left⟩
  · next hn =>
    simp only [run_setState] at h
    obtain ⟨rfl, rfl, rfl⟩ := h
    exact ⟨rfl, .missing hn⟩

/-- The fields of a request that come from the agent, the tool and the state. -/
theorem actionRequest?_eq_some {agent : BaseAgent} {spec : ToolSpec} {state : AgentState}
    {request : ActionRequest} (h : actionRequest? agent spec state = some request) :
    request.agentType = agent.agentType.value ∧ request.action = spec.action ∧
      request.context = state.context := by
  simp only [actionRequest?, Option.bind_eq_bind, Option.pure_def] at h
  split at h
  · simp only [Option.bind_some, Option.bind_eq_some_iff, Option.some.injEq] at h
    obtain ⟨_, -, rfl⟩ := h
    exact ⟨rfl, rfl, rfl⟩
  · cases h

/-! ### Whole runs -/

/-- The runs of the graph, by the node that ends them. -/
inductive Invoked (rt : Runtime) (agent : BaseAgent) (s : Session) :
    List AgentEvent → Except PyExn Unit → Session → Prop where
  | unfetched {t : List AgentEvent} {e : PyExn} {s₁ : Session}
      (hf : Fetched agent s t (.error e) s₁) : Invoked rt agent s t (.error e) s₁
  | unchecked {t u : List AgentEvent} {e : PyExn} {s₁ s₂ : Session}
      (hf : Fetched agent s t (.ok ()) s₁) (hc : Checked rt agent s₁ u (.error e) s₂) :
      Invoked rt agent s (t ++ u) (.error e) s₂
  | blocked {t u : List AgentEvent} {s₁ s₂ : Session} (hf : Fetched agent s t (.ok ()) s₁)
      (hc : Checked rt agent s₁ u (.ok ()) s₂) (eventId : String) (timestamp : Nat)
      (hr : routeAfterPolicy s₂.state ≠ .allowed) :
      Invoked rt agent s (t ++ (u ++ decisionAudit agent s₂.state eventId timestamp)) (.ok ())
        { s₂ with state := s₂.state.setContext "_decision_event_id" (.str eventId) }
  | executed {t u v w : List AgentEvent} {s₁ s₂ s₃ : Session} {out : Except PyExn Unit}
      (hf : Fetched agent s t (.ok ()) s₁)
      (hc : Checked rt agent s₁ u (.ok ()) s₂) (eventId : String) (timestamp : Nat)
      (hr : routeAfterPolicy s₂.state = .allowed)
      (he : Executed agent
        { s₂ with state := s₂.state.setContext "_decision_event_id" (.str eventId) } v s₃)
      (ha : ResultAudited rt agent s₃.state w out) :
      Invoked rt agent s (t ++ (u ++ (decisionAudit agent s₂.state eventId timestamp ++ (v ++ w))))
        out s₃

/-- Every run of the graph is one of these. -/
theorem invoke_run (h : Py.Run (invoke rt agent) s t out s') : Invoked rt agent s t out s' := by
  rw [invoke, Py.run_bind] at h
  rcases h with ⟨e, h, rfl⟩ | ⟨_, t₁, t, s₁, rfl, h₁, h⟩
  · exact .unfetched (fetchToken_run h)
  have hf := fetchToken_run h₁
  rw [Py.run_bind] at h
  rcases h with ⟨e, h, rfl⟩ | ⟨_, t₂, t, s₂, rfl, h₂, h⟩
  · exact .unchecked hf (policyCheck_run h)
  have hc := policyCheck_run h₂
  rw [Py.run_bind] at h
  rcases h with ⟨e, h, rfl⟩ | ⟨_, t₃, t, s₃, rfl, h₃, h⟩
  · obtain ⟨_, _, -, he, -⟩ := auditDecision_run h
    cases he
  obtain ⟨eventId, timestamp, rfl, -, rfl⟩ := auditDecision_run h₃
  rw [Py.run_read_bind] at h
  -- the identifier of the event does not matter for the route
  have hr : routeAfterPolicy (s₂.state.setContext "_decision_event_id" (.str eventId)) =
      routeAfterPolicy s₂.state := rfl
  simp only [hr] at h
  split at h
  · next hr =>
    rw [Py.run_bind] at h
    rcases h with ⟨e, h, rfl⟩ | ⟨_, t₄, t₅, s₄, rfl, h₄, h₅⟩
    · cases (executeTool_run h).1
    obtain ⟨-, he⟩ := executeTool_run h₄
    obtain ⟨rfl, ha⟩ := auditResult_run h₅
    exact .executed hf hc eventId timestamp hr he ha
  all_goals
    simp only [Py.run_pure] at h
    obtain ⟨rfl, rfl, rfl⟩ := h
    rw [List.append_nil]
    exact .blocked hf hc eventId timestamp (by simp_all)

/-! ### Enforcements -/

/-- A call of the enforcement point in a policy check is one of an enforcement. -/
theorem Checked.enforced (h : Checked rt agent s t out s') {e : Event} (he : ofPep e ∈ t) :
    ∃ request u out' p, Py.Run (enforce rt) ⟨s.pep, request⟩ u out' p ∧ e ∈ u ∧
      ∀ d ∈ u, ofPep d ∈ t := by
  have mem_of_map {u : List Event} (hm : ofPep e ∈ u.map ofPep) : e ∈ u := by
    obtain ⟨⟨c, r⟩, hd, hde⟩ := List.mem_map.mp hm
    obtain ⟨c', r'⟩ := e
    cases hde
    exact hd
  cases h with
  | unavailable | invalid => cases he
  | allowed spec hg request hr hx =>
    exact ⟨request, _, _, _, hx, mem_of_map he, fun d hd ↦ List.mem_map_of_mem hd⟩
  | refused spec hg request hr x hx hd =>
    refine ⟨request, _, _, _, hx, ?_, fun d hd ↦ List.mem_append_left _ (List.mem_map_of_mem hd)⟩
    rcases List.mem_append.mp he with he | he
    · exact mem_of_map he
    · cases hd with
      | denial | approval => cases he
      | other => cases List.mem_singleton.mp he

/-- A call of the enforcement point in a run is one of an enforcement. -/
theorem Invoked.enforced (h : Invoked rt agent s t out s') {e : Event} (he : ofPep e ∈ t) :
    ∃ p request u out' p', Py.Run (enforce rt) ⟨p, request⟩ u out' p' ∧ e ∈ u ∧
      ∀ d ∈ u, ofPep d ∈ t := by
  have of_checked {s₁ s₂ : Session} {u : List AgentEvent} {x : Except PyExn Unit}
      (hc : Checked rt agent s₁ u x s₂) (hu : ofPep e ∈ u) (hs : ∀ d ∈ u, d ∈ t) :
      ∃ p request u out' p', Py.Run (enforce rt) ⟨p, request⟩ u out' p' ∧ e ∈ u ∧
        ∀ d ∈ u, ofPep d ∈ t := by
    obtain ⟨request, v, out', p', hx, hm, hv⟩ := hc.enforced hu
    exact ⟨_, request, v, out', p', hx, hm, fun d hd ↦ hs _ (hv d hd)⟩
  have unfetched {u : List AgentEvent} {x : Except PyExn Unit} {s₁ : Session}
      (hf : Fetched agent s u x s₁) : ofPep e ∉ u := by
    cases hf <;> simp [ofPep]
  cases h with
  | unfetched hf => exact absurd he (unfetched hf)
  | unchecked hf hc =>
    exact of_checked hc ((List.mem_append.mp he).resolve_left (unfetched hf))
      fun d hd ↦ List.mem_append_right _ hd
  | @blocked _ u _ _ hf hc eventId timestamp =>
    have hu : ofPep e ∈ u := by
      simpa [decisionAudit, ofPep] using (List.mem_append.mp he).resolve_left (unfetched hf)
    exact of_checked hc hu fun d hd ↦ List.mem_append_right _ (List.mem_append_left _ hd)
  | @executed _ u _ _ _ _ _ _ hf hc eventId timestamp hr hx ha =>
    have hu : ofPep e ∈ u := by
      have hm := (List.mem_append.mp he).resolve_left (unfetched hf)
      cases hx <;> cases ha <;> simpa [decisionAudit, ofPep] using hm
    exact of_checked hc hu fun d hd ↦ List.mem_append_right _ (List.mem_append_left _ hd)

/-! ### Handlers -/

/-- A call of a tool handler. -/
def AgentCall.isHandler : AgentCall → Bool
  | handler .. => true
  | _ => false

/-- No call is one of a tool handler. -/
def Unhandled (t : List AgentEvent) : Prop := ∀ e ∈ t, e.1.isHandler = false

private theorem unhandled_append {t u : List AgentEvent} (ht : Unhandled t) (hu : Unhandled u) :
    Unhandled (t ++ u) := fun e he ↦ (List.mem_append.mp he).elim (ht e) (hu e)

private theorem unhandled_ofPep (u : List Event) : Unhandled (u.map ofPep) := by
  intro e he
  obtain ⟨e, -, rfl⟩ := List.mem_map.mp he
  rfl

private theorem Fetched.unhandled (h : Fetched agent s t out s') : Unhandled t := by
  cases h <;> simp [Unhandled, AgentCall.isHandler]

private theorem Described.unhandled {e : PyExn} {text : String} (h : Described e t text) :
    Unhandled t := by
  cases h <;> simp [Unhandled, AgentCall.isHandler]

private theorem Checked.unhandled (h : Checked rt agent s t out s') : Unhandled t := by
  cases h with
  | unavailable | invalid => exact fun _ he ↦ nomatch he
  | allowed => exact unhandled_ofPep _
  | refused _ _ _ _ _ _ hd => exact unhandled_append (unhandled_ofPep _) hd.unhandled

private theorem unhandled_decisionAudit (state : AgentState) (eventId : String) (timestamp : Nat) :
    Unhandled (decisionAudit agent state eventId timestamp) := by
  simp [Unhandled, decisionAudit, AgentCall.isHandler]

private theorem ResultAudited.unhandled {state : AgentState}
    (h : ResultAudited rt agent state t out) :
    Unhandled t := by
  cases h <;> simp [Unhandled, AgentCall.isHandler]

/-- A check with the decision ALLOW is an enforcement that returned, unless a class of
exceptions is named so. -/
theorem Checked.of_allow (h : Checked rt agent s t (.ok ()) s')
    (hd : s'.state.decision = some "ALLOW") (hn : ∀ e, ofPep e ∈ t → raised? e ≠ some "ALLOW") :
    ∃ spec request u p, agent.registry.get s.state.toolKey = .ok spec ∧
      actionRequest? agent spec s.state = some request ∧
      Py.Run (enforce rt) ⟨s.pep, request⟩ u (.ok ()) p ∧ t = u.map ofPep ∧
      s'.state = { s.state.setContext "_action_request" request.dump with
        decision := some "ALLOW" } := by
  cases h with
  | unavailable message hg => simp at hd
  | allowed spec hg request hr he => exact ⟨spec, request, _, _, hg, hr, he, rfl, rfl⟩
  | @refused spec hg request hr u p e he v text hx =>
    cases e with
    | policyDenial | approvalRequired => simp [exceptionName] at hd
    | other cls =>
      simp only [exceptionName, Option.some.injEq] at hd
      subst hd
      rcases (enforce_run he).raised rfl with ho | ⟨e, he, hr⟩
      · exact absurd ho (by decide)
      · exact absurd hr (hn e (List.mem_append_left _ (List.mem_map_of_mem he)))

/-- Only an allowed decision leads to the tool. -/
theorem routeAfterPolicy_eq_allowed_iff (state : AgentState) :
    routeAfterPolicy state = .allowed ↔ state.decision = some "ALLOW" := by
  rw [routeAfterPolicy]
  split
  · next h => simp [h]
  · next h =>
    simp only [h, iff_false]
    split <;> nofun

/-- The handler of an execution is that of the tool of the state. -/
theorem Executed.handler (h : Executed agent s t s') {key : String} {state : AgentState}
    {reply : Except String ToolResult × AgentState} (hm : ⟨.handler key state, reply⟩ ∈ t) :
    key = s.state.toolKey ∧ state = s.state := by
  cases h with
  | missing => cases hm
  | returned | raised =>
    cases List.mem_singleton.mp hm
    exact ⟨rfl, rfl⟩

/-- A handler is called for the tool of the run, with its arguments in the state, and only
after an enforcement of its request returned. -/
theorem Invoked.handled (h : Invoked rt agent s t out s')
    (hn : ∀ e, ofPep e ∈ t → raised? e ≠ some "ALLOW") {key : String} {state : AgentState}
    {reply : Except String ToolResult × AgentState} (hm : ⟨.handler key state, reply⟩ ∈ t) :
    ∃ token claims spec request u p, agent.registry.get s.state.toolKey = .ok spec ∧
      actionRequest? agent spec (s.state.withToken token claims) = some request ∧
      Py.Run (enforce rt) ⟨s.pep, request⟩ u (.ok ()) p ∧ (∀ e ∈ u, ofPep e ∈ t) ∧
      key = s.state.toolKey ∧ state.resourceArn = s.state.resourceArn ∧
      state.taskId = s.state.taskId := by
  have absent {u : List AgentEvent} (hu : Unhandled u) :
      (⟨.handler key state, reply⟩ : AgentEvent) ∉ u := fun h ↦ by cases hu _ h
  cases h with
  | unfetched hf => exact absurd hm (absent hf.unhandled)
  | unchecked hf hc => exact absurd hm (absent (unhandled_append hf.unhandled hc.unhandled))
  | blocked hf hc =>
    exact absurd hm (absent (unhandled_append hf.unhandled
      (unhandled_append hc.unhandled (unhandled_decisionAudit _ _ _))))
  | @executed t u v w s₁ s₂ _ _ hf hc eventId timestamp hr he ha =>
    have hv : (⟨.handler key state, reply⟩ : AgentEvent) ∈ v := by
      simpa [absent hf.unhandled, absent hc.unhandled, absent (unhandled_decisionAudit _ _ _),
        absent ha.unhandled] using hm
    have hs : ∀ e, ofPep e ∈ u → ofPep e ∈ t ++ (u ++ (decisionAudit agent s₂.state eventId
        timestamp ++ (v ++ w))) := fun e he ↦
      List.mem_append_right _ (List.mem_append_left _ he)
    obtain ⟨spec, request, w, p, hg, hq, hx, rfl, hs₂⟩ :=
      hc.of_allow ((routeAfterPolicy_eq_allowed_iff _).mp hr) fun e he ↦ hn e (hs e he)
    obtain ⟨hk, rfl⟩ := he.handler hv
    cases hf with
    | fetched token claims =>
      refine ⟨token, claims, spec, request, w, p, hg, hq, hx,
        fun e he ↦ hs e (List.mem_map_of_mem he), ?_, ?_, ?_⟩
      · rw [hk, hs₂]
        rfl
      · rw [hs₂]
        rfl
      · rw [hs₂]
        rfl

end NhiSentinel.Agents
