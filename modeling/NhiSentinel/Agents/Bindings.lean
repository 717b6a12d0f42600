import NhiSentinel.Agents.System

/-!
# Manifest bindings

The environments, the hours and the rate that a manifest binds its agent to, against what an
enforcement looks at. The policy reads them from the context of the request, which a run takes
from its caller; no part of the system puts those of the manifest there.
-/

namespace NhiSentinel.Agents
open NhiSentinel.Base NhiSentinel.Pep NhiSentinel.Policy NhiSentinel.Rego NhiSentinel.Identity

/-! ### The bindings of a manifest -/

/-- The UTC hour of a time in nanoseconds. -/
def hourUtc (now : Int) : Int := now / 3600000000000 % 24

/-- The agent has the identity of the manifest. -/
structure RunsUnder (agent : BaseAgent) (manifest : AgentIdentityManifest) : Prop where
  name : agent.agentId = manifest.metadata.name
  type : agent.agentType = manifest.spec.agentType

/-- An agent for incidents that works on one. -/
def OnIncident (agent : BaseAgent) (request : ActionRequest) : Prop :=
  agent.agentType = .secops ∧ ∃ v, request.context.lookup "incident_id" = some v ∧ v ≠ .bool false

/-- The request of an agent, evaluated at a time and after the given calls, is within its
bindings. -/
structure Bound (bindings : ContextBindings) (agent : BaseAgent) (request : ActionRequest)
    (now : Int) (calls : List Event) : Prop where
  environment : request.environment ∈ bindings.environments
  hour : ∀ window, bindings.timeWindow = some window →
    window.Contains (hourUtc now) ∨ OnIncident agent request
  rate : ∀ e ∈ calls, ∀ count, increment? e = some count → count ≤ bindings.maxActionsPerMinute

/-- A policy server with its clock at the given time. -/
def PolicyServer.at (policy : PolicyServer) (now : Int) : PolicyServer :=
  fun q ↦ policy ⟨q.input, now⟩

/-- What is promised of the arguments of a caller under a policy server and a manifest: whenever the
enforcement of the request of a run returns, for an agent under the manifest, the request is
within the bindings of the manifest. -/
def EnforcedFor (policy : PolicyServer) (manifest : AgentIdentityManifest) (args : RunArgs) :
    Prop :=
  ∀ (rt : Runtime) (agent : BaseAgent) (pep : PolicyEnforcementPoint) (now : Int),
    RunsUnder agent manifest →
    ∀ t s, Py.Run (fetchToken agent) ⟨pep, args.initialState⟩ t (.ok ()) s →
    ∀ spec request, agent.registry.get args.toolKey = .ok spec →
      actionRequest? agent spec s.state = some request →
    ∀ u q, Py.Run (enforce rt) ⟨s.pep, request⟩ u (.ok ()) q →
      (∀ url body reply, (⟨.post url body, reply⟩ : Event) ∈ u →
        Posted (policy.at now) body reply) →
      Bound manifest.spec.contextBindings agent request now u

/-- The same of a manifest, whatever a caller passes. -/
def BindingsEnforced (policy : PolicyServer) (manifest : AgentIdentityManifest) : Prop :=
  ∀ args, EnforcedFor policy manifest args

/-! ### The bindings of a context -/

/-- A key of a context that the policy takes for declared: any value but false. -/
def declared? (context : List (String × Value)) (key : String) : Option Value :=
  (context.lookup key).filter (· ≠ .bool false)

/-- A request is within the bindings that its own context declares. -/
structure ContextBound (request : ActionRequest) (now : Int) : Prop where
  environment : ∀ v, declared? request.context "allowed_environments" = some v →
    .str request.environment ∈ v.elems
  hour : ∀ window, declared? request.context "time_window" = some window →
    (request.agentType = AgentType.secops.value ∧
        declared? request.context "incident_id" ≠ none) ∨
      ∃ start stop, window.get? "start_hour_utc" = some start ∧
        window.get? "end_hour_utc" = some stop ∧
        ge (.int (hourUtc now)) start = true ∧ lt (.int (hourUtc now)) stop = true
  rate : ∀ count, declared? request.context "current_action_count_per_minute" = some count →
    lt count ((declared? request.context "max_actions_per_minute").getD (.int 30)) = true

/-- A context declares bindings that let nothing pass which those of a manifest exclude. -/
structure AsStrict (bindings : ContextBindings) (context : List (String × Value)) : Prop where
  environments : ∃ v, declared? context "allowed_environments" = some v ∧
    ∀ environment, .str environment ∈ v.elems → environment ∈ bindings.environments
  window : ∀ window, bindings.timeWindow = some window →
    ∃ v, declared? context "time_window" = some v ∧
      ∀ start stop, v.get? "start_hour_utc" = some start → v.get? "end_hour_utc" = some stop →
        ∀ hour : Int, ge (.int hour) start = true → lt (.int hour) stop = true →
          window.Contains hour
  limit : ∀ count : Int,
    lt (.int count) ((declared? context "max_actions_per_minute").getD (.int 30)) = true →
      count ≤ bindings.maxActionsPerMinute

private theorem ref_context (request : ActionRequest) (now : Int) (key : String) :
    Query.ref ⟨request.dump, now⟩ ["context", key] = .ofOption (request.context.lookup key) := by
  rw [Query.ref, Value.path?_cons, ActionRequest.dump_context, Option.bind_some, Value.path?_cons,
    Value.get?_obj]
  cases request.context.lookup key <;> rfl

section
variable {request : ActionRequest} {now : Int} {key : String} {v : Value}

private theorem ref_of_declared (h : declared? request.context key = some v) :
    Query.ref ⟨request.dump, now⟩ ["context", key] = .value v := by
  rw [ref_context, (Option.filter_eq_some_iff.mp h).1, Eval.ofOption_some]

private theorem naf_of_declared (h : declared? request.context key = some v) :
    Eval.naf (Query.ref ⟨request.dump, now⟩ ["context", key]) = .undefined := by
  have hv : v ≠ .bool false := by simpa using (Option.filter_eq_some_iff.mp h).2
  rw [ref_of_declared h, Eval.naf, decide_eq_false hv, Eval.guard_false]

private theorem check_ref (request : ActionRequest) (now : Int) (key : String) :
    Eval.check (Query.ref ⟨request.dump, now⟩ ["context", key]) =
      .guard (declared? request.context key).isSome := by
  rw [ref_context, declared?]
  cases request.context.lookup key with
  | none => rfl
  | some v =>
    by_cases hv : v = .bool false
    · subst hv
      rfl
    · simp [Eval.check, Eval.ofOption, Option.filter, hv]

private theorem maxActionsPerMinute_eq (request : ActionRequest) (now : Int) :
    RateLimit.maxActionsPerMinute ⟨request.dump, now⟩ =
      .value ((declared? request.context "max_actions_per_minute").getD (.int 30)) := by
  rw [RateLimit.maxActionsPerMinute, check_ref, defaultRule, Eval.rule_singleton, Eval.body_guard]
  cases h : declared? request.context "max_actions_per_minute" with
  | none => rfl
  | some m =>
    rw [ref_of_declared h]
    rfl

private theorem exempt_context (request : ActionRequest) (now : Int) :
    (TimeWindow.exempt ⟨request.dump, now⟩).succeeds = true ↔
      request.agentType = AgentType.secops.value ∧
        declared? request.context "incident_id" ≠ none := by
  have hq : Query.ref ⟨request.dump, now⟩ ["agent_type"] =
      .ofOption (some (.str request.agentType)) := rfl
  rw [TimeWindow.exempt, check_ref, hq, ← Eval.ofOption_some, Eval.equals_ofOption,
    Eval.guard_bind_guard, Eval.succeeds_guard]
  simp [AgentType.value, Option.isSome_iff_ne_none]

private theorem inside_context {window : Value}
    (hv : declared? request.context "time_window" = some window)
    (h : (TimeWindow.inside ⟨request.dump, now⟩).succeeds = true) :
    ∃ start stop, window.get? "start_hour_utc" = some start ∧
      window.get? "end_hour_utc" = some stop ∧
      ge (.int (hourUtc now)) start = true ∧ lt (.int (hourUtc now)) stop = true := by
  rw [TimeWindow.inside, ref_of_declared hv, Eval.bind_value] at h
  cases hs : window.get? "start_hour_utc" with
  | none =>
    rw [hs] at h
    cases h
  | some start =>
    cases he : window.get? "end_hour_utc" with
    | none =>
      rw [hs, he] at h
      simp only [Eval.ofOption_some, Eval.ofOption_none, Eval.bind_value, Eval.bind_undefined,
        Eval.guard_bind_undefined] at h
      cases h
    | some stop =>
      rw [hs, he] at h
      simp only [Eval.ofOption_some, Eval.bind_value, Eval.guard_bind_guard, Eval.succeeds_guard,
        Bool.and_eq_true] at h
      exact ⟨start, stop, rfl, rfl, h.1, h.2⟩

/-- The policy allows only requests within the bindings of their own context. -/
theorem contextBound_of_allow (h : Main.effect ⟨request.dump, now⟩ = .value (.str "ALLOW")) :
    ContextBound request now := by
  have hp : Main.passes ⟨request.dump, now⟩ = true := (Main.granted_iff _).mp (.inl h)
  simp only [Main.passes, Bool.and_eq_true] at hp
  obtain ⟨⟨⟨⟨-, hw⟩, -⟩, he⟩, hr⟩ := hp
  refine ⟨fun v hv ↦ ?_, fun window hv ↦ ?_, fun count hv ↦ ?_⟩
  · rw [TaskScope.holds_environmentAllowed, TaskScope.undeclared, TaskScope.declared,
      naf_of_declared hv, ref_of_declared hv] at he
    have hq : Query.ref ⟨request.dump, now⟩ ["environment"] = .value (.str request.environment) :=
      rfl
    rw [hq, Eval.bind_value, Eval.bind_value, Eval.succeeds_guard] at he
    simpa [Eval.succeeds] using he
  · rw [TimeWindow.holds_withinWindow, TimeWindow.undeclared, naf_of_declared hv, Bool.or_eq_true,
      Bool.or_eq_true] at hw
    rcases hw with (hw | hw) | hw
    · cases hw
    · exact .inl ((exempt_context request now).mp hw)
    · exact .inr (inside_context hv hw)
  · rw [RateLimit.holds_withinRateLimit, RateLimit.uncounted, RateLimit.belowLimit,
      naf_of_declared hv, ref_of_declared hv, maxActionsPerMinute_eq, Eval.bind_value,
      Eval.bind_value, Eval.succeeds_guard] at hr
    simpa [Eval.succeeds] using hr

end

/-- Under any faithful policy server an enforcement that returns has found the request that it
sent within the bindings of its context, with the count that was answered past the first. -/
theorem contextBound_of_enforced {policy : PolicyServer} (hf : Faithful policy) {rt : Runtime}
    {now : Int} {s s' : State} {u : List Event} (h : Py.Run (enforce rt) s u (.ok ()) s')
    (hp : ∀ url body reply, (⟨.post url body, reply⟩ : Event) ∈ u →
      Posted (policy.at now) body reply) :
    ∃ v, (∀ e ∈ u, ∀ count, increment? e = some count → injected v = some count ∨ count = 1) ∧
      ContextBound (s.request.sent v) now := by
  obtain ⟨v, at', decision, hv, ha, he⟩ := enforce_decided h hp
  exact ⟨v, hv, contextBound_of_allow (hf ⟨(s.request.sent v).dump, now⟩ decision he ha)⟩

private theorem declared?_withToken (state : AgentState) (token : String) (claims : Value)
    {key : String} (hc : key ≠ "_token_claims") (ht : key ≠ "_token") :
    declared? (state.withToken token claims).context key = declared? state.context key := by
  rw [declared?, declared?, AgentState.withToken, AgentState.setContext, AgentState.setContext]
  exact congrArg (Option.filter _) ((Value.lookup_setMember_ne _ _ ht).trans
    (Value.lookup_setMember_ne _ _ hc))

private theorem declared?_sent (request : ActionRequest) (v : List Event) {key : String}
    (hk : key ≠ "current_action_count_per_minute") :
    declared? (request.sent v).context key = declared? request.context key := by
  rw [declared?, declared?, sent_context request v hk]

private theorem sent_fields (request : ActionRequest) (v : List Event) :
    (request.sent v).environment = request.environment ∧
      (request.sent v).agentType = request.agentType := by
  rw [ActionRequest.sent]
  split <;> exact ⟨rfl, rfl⟩

private theorem declared?_count {request : ActionRequest} {v : List Event} {count : Int}
    (h : injected v = some count) :
    declared? (request.sent v).context "current_action_count_per_minute" = some (.int count) := by
  have hl : (request.sent v).context.lookup "current_action_count_per_minute" =
      some (.int count) := by
    rw [ActionRequest.sent, h]
    exact Value.lookup_setMember_self ..
  rw [declared?, hl]
  rfl

/-- An agent that may describe instances. -/
def describingAgent : BaseAgent where
  agentId := "agent-infra-001"
  agentType := .infra
  registry := .ofScopes ["cloud:ec2:describe"]
  sourceIp := "10.0.1.10"
  toolHandlers := []

/-- A description of instances in a context of the caller. -/
def description (context : List (String × Value)) : RunArgs where
  toolKey := "ec2_describe_instances"
  resourceArn := "arn:aws:ec2:us-east-1:*:instance/*"
  taskId := "task-001"
  environment := "staging"
  context := context

/-- The state of that run with an active token of the agent. -/
def describingState (context : List (String × Value)) : AgentState :=
  (description context).initialState.withToken "" (.obj (Main.describeClaims (.bool true)))

/-- The request of that run. -/
def describingRequest (context : List (String × Value)) : ActionRequest :=
  Main.describeRequest (Main.describeClaims (.bool true)) (describingState context).context

/-- Replies to an enforcement: Redis counts the third action of the minute, the policy server
answers, and the resource policy permits. -/
def thirdAction (policy : PolicyServer) : (c : Pep.Call) → c.Reply
  | .connect => .ok ()
  | .redis (.sismember ..) => .ok false
  | .redis (.incr _) => .ok (3 : Int)
  | .post _ body => answered policy body
  | c => granting policy (.agent (.pep c))

/-- The enforcement of that request on these replies, up to the given number of calls. -/
def enforcing (policy : PolicyServer) (context : List (String × Value)) (n : Nat) :
    List Event × Prog Pep.Call Pep.Call.Reply (Except PyExn Unit × State) :=
  (enforce asciiRuntime ⟨⟨"http://localhost:8181", false⟩, describingRequest context⟩).play
    (thirdAction policy) n

/-- Whether an enforcement has returned. -/
def hasReturned : Prog Pep.Call Pep.Call.Reply (Except PyExn Unit × State) → Bool
  | .done (.ok (), _) => true
  | _ => false

private theorem exists_of_hasReturned {p : Prog Pep.Call Pep.Call.Reply (Except PyExn Unit × State)}
    (h : hasReturned p = true) : ∃ s', p = .done (.ok (), s') := by
  unfold hasReturned at h
  split at h
  · exact ⟨_, rfl⟩
  · cases h

private theorem answered_posted (policy : PolicyServer) (now : Int) (body : Value) :
    Posted (policy.at now) body (answered (policy.at now) body) := by
  unfold answered
  split
  · exact .decided _ 0
  · exact .unreachable _

private theorem run_enforcing {policy : PolicyServer} {now : Int} {context : List (String × Value)}
    {n : Nat} (h : hasReturned (enforcing (policy.at now) context n).2 = true) :
    ∃ q, Py.Run (enforce asciiRuntime)
        ⟨⟨"http://localhost:8181", false⟩, describingRequest context⟩
        (enforcing (policy.at now) context n).1 (.ok ()) q ∧
      ∀ url body reply,
        (⟨.post url body, reply⟩ : Event) ∈ (enforcing (policy.at now) context n).1 →
        Posted (policy.at now) body reply := by
  obtain ⟨q, hq⟩ := exists_of_hasReturned h
  obtain ⟨hs, hr⟩ := Prog.steps_play (thirdAction (policy.at now)) n
    (enforce asciiRuntime ⟨⟨"http://localhost:8181", false⟩, describingRequest context⟩)
  change Prog.Steps _ _ (enforcing (policy.at now) context n).2 at hs
  rw [hq] at hs
  refine ⟨q, hs, fun url body reply hp ↦ ?_⟩
  have hx : reply = answered (policy.at now) body := hr _ hp
  rw [hx]
  exact answered_posted policy now body

private theorem run_fetchToken (pep : PolicyEnforcementPoint) (context : List (String × Value)) :
    Py.Run (fetchToken describingAgent) ⟨pep, (description context).initialState⟩
      [⟨.getToken "task-001" "staging" "10.0.1.10", .ok ""⟩,
        ⟨.introspect "", .ok (.obj (Main.describeClaims (.bool true)))⟩] (.ok ())
      ⟨pep, describingState context⟩ := by
  simp only [fetchToken, getToken, introspect, Py.run_read_bind, run_ask_bind, cast_eq]
  refine ⟨_, _, rfl, ?_⟩
  simp only [Except.mapError, Py.run_ofExcept_ok_bind, run_ask_bind, cast_eq]
  refine ⟨_, _, rfl, ?_⟩
  simp only [Py.run_ofExcept_ok_bind, run_setState, true_and]
  rfl

/-- A caller that passes the bindings of the manifest of the repository. -/
def bindingContext : List (String × Value) := [
  ("allowed_environments", .arr [.str "staging"]),
  ("time_window", .obj [("start_hour_utc", .int 8), ("end_hour_utc", .int 20)]),
  ("max_actions_per_minute", .int 20)]

/-- The context is as strict as the bindings of the agent. -/
theorem bindingContext_asStrict : AsStrict agentInfra001.spec.contextBindings bindingContext := by
  constructor
  · refine ⟨.arr [.str "staging"], rfl, fun environment he ↦ ?_⟩
    cases List.mem_singleton.mp he
    exact List.mem_singleton_self _
  · rintro window ⟨⟩
    refine ⟨.obj [("start_hour_utc", .int 8), ("end_hour_utc", .int 20)], rfl, ?_⟩
    rintro start stop ⟨⟩ ⟨⟩ hour hge hlt
    exact ⟨by simpa [ge, compare_lt_iff_lt] using hge, by simpa [lt, compare_lt_iff_lt] using hlt⟩
  · intro count hlt
    have hl : declared? bindingContext "max_actions_per_minute" = some (.int 20) := rfl
    rw [hl, Option.getD_some] at hlt
    have hlt' : count < 20 := by simpa [lt, compare_lt_iff_lt] using hlt
    exact hlt'.le

/-- Noon of the first day, in nanoseconds. -/
def noon : Int := 12 * 3600000000000

end NhiSentinel.Agents
