import NhiSentinel.Agents.Runs
import NhiSentinel.Approval.Handoff
import NhiSentinel.Base.Interleave
import NhiSentinel.Pep.Wire

/-!
# The system

Runs of agents, requests for approval and their resolutions on one Redis server, in every
order of their calls. The policy server is a parameter: what it answers to a query. The
other services answer anything.
-/

namespace NhiSentinel.Agents
open NhiSentinel.Base NhiSentinel.Pep NhiSentinel.Approval NhiSentinel.Policy NhiSentinel.Rego

/-! ### Parties -/

/-- The calls of the parties. -/
inductive SystemCall where
  | agent (c : AgentCall)
  | queue (c : QueueCall)

/-- What a call is answered. -/
@[reducible] def SystemCall.Reply : SystemCall → Type
  | agent c => c.Reply
  | queue c => c.Reply

/-- A call together with its reply. -/
abbrev SystemEvent := Sigma SystemCall.Reply

/-- A call of an enforcement point, seen from the system. -/
def ofEnforcement (e : Event) : SystemEvent := ⟨.agent (.pep e.1), e.2⟩

/-- The parties: a run of an agent, an enqueuing and a resolution. -/
inductive Party where
  | run (agent : BaseAgent) (pep : PolicyEnforcementPoint) (args : RunArgs)
  | enqueue (agentId action resourceArn taskId policyRef : String)
      (riskLevel : Approval.RiskLevel) (tokenJti : String) (context : Value)
      (ttlSeconds : Int)
  | resolve (resolution : ApprovalResolution)

/-- What a party does. -/
def Party.program (rt : Runtime) (codec : Codec) : Party → Prog SystemCall SystemCall.Reply Unit
  | run agent pep args =>
    ((Agents.run rt agent pep args).embed .agent fun _ reply ↦ reply).bind fun _ ↦ .done ()
  | enqueue agentId action resourceArn taskId policyRef riskLevel tokenJti context ttlSeconds =>
    ((Approval.enqueue codec agentId action resourceArn taskId policyRef riskLevel tokenJti context
      ttlSeconds ()).embed .queue fun _ reply ↦ reply).bind fun _ ↦ .done ()
  | resolve resolution =>
    ((Approval.resolve codec resolution ()).embed .queue fun _ reply ↦ reply).bind fun _ ↦ .done ()

/-! ### Services -/

/-- A policy server: the status and the body of its reply to a query. -/
abbrev PolicyServer := Query → Nat × Value

/-- What comes back of a POST to the policy server: its reply at some time, a refusal, or an
exception on the way. -/
inductive Posted (policy : PolicyServer) : Value → HttpReply → Prop where
  | unreachable (body : Value) : Posted policy body .requestError
  | raised (body : Value) (cls : String) : Posted policy body (.raised cls)
  | refused (body : Value) (status : Nat) (reply : Except String Value)
      (h : isSuccess status = false) : Posted policy body (.response status reply)
  | decided (input : Value) (now : Int) :
      Posted policy (.obj [("input", input)])
        (.response (policy ⟨input, now⟩).1 (.ok (policy ⟨input, now⟩).2))

/-- What is assumed of the replies to an enforcement point: those to a POST are the policy
server's, and no class of exceptions has the name of a decision. -/
structure Sane (policy : PolicyServer) (e : Event) : Prop where
  named : raised? e ≠ some "ALLOW"
  posted : ∀ url body reply, e = ⟨.post url body, reply⟩ → Posted policy body reply

/-- The Redis server of the system and the time. -/
structure Cluster where
  store : Redis.Store
  now : Nat

/-- A command is executed, or fails with or without having been executed. -/
def Cluster.Executes (w : Cluster) (c : Redis.Command) (reply : Except String c.Reply)
    (w' : Cluster) : Prop :=
  let executed := { w with store := (Redis.exec w.now c w.store).2 }
  (reply = (Redis.exec w.now c w.store).1.mapError (fun _ ↦ "ResponseError") ∧ w' = executed) ∨
    ((∃ cls, reply = .error cls) ∧ (w' = w ∨ w' = executed))

/-- How the services answer. -/
def Cluster.Answers (policy : PolicyServer) (w : Cluster) :
    (c : SystemCall) → c.Reply → Cluster → Prop
  | .agent (.pep (.redis c)), reply, w' => Sane policy ⟨.redis c, reply⟩ ∧ w.Executes c reply w'
  | .agent (.pep .clock), reply, w' => reply = w.now ∧ w' = w
  | .agent (.pep c), reply, w' => Sane policy ⟨c, reply⟩ ∧ w' = w
  | .agent .clock, reply, w' => reply = w.now ∧ w' = w
  | .agent _, _, w' => w' = w
  | .queue (.redis c), reply, w' => w.Executes c reply w'
  | .queue .clock, reply, w' => reply = w.now ∧ w' = w
  | .queue .uuid4, _, w' => w' = w

/-- The services as a world in which time passes. -/
def system (ι : Type) (policy : PolicyServer) :
    World ι SystemCall SystemCall.Reply Cluster where
  answer w _ c reply w' := w.Answers policy c reply w'
  background w w' := w'.store = w.store ∧ w.now ≤ w'.now

/-- The replies of the services to an enforcement point are sane. -/
theorem Cluster.Answers.sane {policy : PolicyServer} {w w' : Cluster} {e : Event}
    (h : w.Answers policy (.agent (.pep e.1)) e.2 w') : Sane policy e := by
  obtain ⟨c, reply⟩ := e
  cases c with
  | clock => exact ⟨nofun, nofun⟩
  | _ => exact h.1

section
variable {ι : Type} [DecidableEq ι] {rt : Runtime} {codec : Codec} {policy : PolicyServer}
  {parties : ι → Party} {w₀ w : Cluster} {t : List (ι × SystemEvent)}
  {p : ι → Prog SystemCall SystemCall.Reply Unit}

/-- Along an interleaving the replies to the enforcement points are sane. -/
theorem reach_sane {p₀ : ι → Prog SystemCall SystemCall.Reply Unit}
    (h : Reach (system ι policy) p₀ w₀ t p w) {i : ι} {e : Event}
    (he : (i, ofEnforcement e) ∈ t) : Sane policy e := by
  have hi : ∀ i e, (i, ofEnforcement e) ∈ t → Sane policy e := by
    refine h.invariant (I := fun t _ ↦ ∀ i e, (i, ofEnforcement e) ∈ t → Sane policy e) ?_ ?_ ?_
    · intro i e he
      cases he
    · intro t w w' j c k reply _ hs ha i e he
      rcases List.mem_append.mp he with he | he
      · exact hs i e he
      · cases List.mem_singleton.mp he
        exact ha.sane
    · intro t w w' hs _
      exact hs
  exact hi i e he

/-- Replies with which every party comes to an end. -/
def calm : (c : SystemCall) → c.Reply
  | .agent (.getToken ..) => .ok ""
  | .agent (.introspect _) => .ok (.obj [])
  | .agent (.pep c) => services .requestError 0 [] c
  | .agent (.exceptionText _) => ""
  | .agent .uuid4 => ""
  | .agent .clock => (0 : Nat)
  | .agent (.publish _) => ()
  | .agent (.handler _ state) => (.ok (.other .null), state)
  | .queue (.redis _) => .error "ConnectionError"
  | .queue .clock => (0 : Nat)
  | .queue .uuid4 => ""

private theorem calm_sane (c : Pep.Call) : Sane policy ⟨c, calm (.agent (.pep c))⟩ := by
  refine ⟨?_, ?_⟩
  · cases c with
    | redis c => cases c <;> nofun
    | _ => nofun
  · rintro url body reply he
    cases he
    exact .unreachable body

/-- The calls of the run of an agent within the system are those of a run of its own. -/
theorem run_of_program {agent : BaseAgent} {pep : PolicyEnforcementPoint} {args : RunArgs}
    {t : List SystemEvent}
    (h : Prog.Run ((Party.run agent pep args).program rt codec) t ()) :
    ∃ u out s', Py.Run (invoke rt agent) ⟨pep, args.initialState⟩ u out s' ∧
      ∀ e : SystemEvent, e ∈ t ↔ ∃ a ∈ u, e = ⟨.agent a.1, a.2⟩ := by
  rw [Party.program, Prog.run_bind] at h
  obtain ⟨t₁, ⟨out, s'⟩, t₂, rfl, h₁, h₂⟩ := h
  rw [Prog.run_done] at h₂
  obtain ⟨rfl, -⟩ := h₂
  obtain ⟨u, hu, hm, hm'⟩ := Prog.exists_run_of_embed _ _ h₁
  refine ⟨u, out, s', hu, fun e ↦ ?_⟩
  rw [List.append_nil]
  constructor
  · intro he
    obtain ⟨a, ha, r, rfl, hr⟩ := hm e he
    exact ⟨a, ha, by rw [hr]⟩
  · rintro ⟨a, ha, rfl⟩
    obtain ⟨r, hd, hr⟩ := hm' a ha
    rwa [hr]

/-- A handler that is about to be called belongs to a run whose enforcement returned, on sane
replies. -/
theorem reach_handled (h : Reach (system ι policy) (fun i ↦ (parties i).program rt codec) w₀ t p w)
    {i : ι} {agent : BaseAgent} {pep : PolicyEnforcementPoint} {args : RunArgs}
    (hi : parties i = .run agent pep args) {key : String} {state : AgentState}
    {k : SystemCall.Reply (.agent (.handler key state)) → Prog SystemCall SystemCall.Reply Unit}
    (hp : p i = .call (.agent (.handler key state)) k) :
    ∃ token claims spec request u q, agent.registry.get args.toolKey = .ok spec ∧
      actionRequest? agent spec (args.initialState.withToken token claims) = some request ∧
      Py.Run (enforce rt) ⟨pep, request⟩ u (.ok ()) q ∧ (∀ e ∈ u, Sane policy e) ∧
      state.resourceArn = args.resourceArn ∧ state.taskId = args.taskId := by
  -- the run is brought to its end on calm replies
  have hs := h.steps i
  rw [hp, hi] at hs
  obtain ⟨v, ⟨⟩, hv, hc⟩ :=
    (hs.trans (.call (calm (.agent (.handler key state))) (.refl _))).exists_run calm
  obtain ⟨u, out, s', hu, hm⟩ := run_of_program hv
  have hsane : ∀ e, ofPep e ∈ u → Sane policy e := by
    intro e he
    have he' : ofEnforcement e ∈ _ := (hm (ofEnforcement e)).mpr ⟨ofPep e, he, rfl⟩
    rcases List.mem_append.mp he' with he' | he'
    · rcases List.mem_append.mp he' with he' | he'
      · exact reach_sane h (mem_eventsOf.mp he')
      · cases List.mem_singleton.mp he'
    · obtain ⟨c, reply⟩ := e
      obtain rfl : reply = calm (.agent (.pep c)) := hc _ he'
      exact calm_sane c
  have hh : (⟨.handler key state, calm (.agent (.handler key state))⟩ : AgentEvent) ∈ u := by
    obtain ⟨a, ha, he⟩ := (hm ⟨.agent (.handler key state), calm (.agent (.handler key state))⟩).mp
      (List.mem_append_left _ (List.mem_append_right _ (List.mem_singleton_self _)))
    obtain ⟨c, reply⟩ := a
    cases he
    exact ha
  obtain ⟨token, claims, spec, request, x, q, hg, hq, hr, hx, -, hres, htask⟩ :=
    (invoke_run hu).handled (fun e he ↦ (hsane e he).named) hh
  exact ⟨token, claims, spec, request, x, q, hg, hq, hr, fun e he ↦ hsane e (hx e he), hres, htask⟩

/-- An enforcement that returns got an allowing decision of the policy server on its request, sent
with the count that was answered, if there was one past the first. -/
theorem enforce_decided {s s' : State} {u : List Event}
    (h : Py.Run (enforce rt) s u (.ok ()) s')
    (hs : ∀ url body reply, (⟨.post url body, reply⟩ : Event) ∈ u → Posted policy body reply) :
    ∃ v now decision, (∀ e ∈ u, ∀ count, increment? e = some count →
        injected v = some count ∨ count = 1) ∧ decision.effect = .allow ∧
      Evaluated (.response (policy ⟨(s.request.sent v).dump, now⟩).1
        (.ok (policy ⟨(s.request.sent v).dump, now⟩).2)) (.ok decision) := by
  generalize ho : (Except.ok () : Except PyExn Unit) = out at h
  cases enforce_run h with
  | unbound | illTyped | suspended | unserializable | unevaluated => cases ho
  | @evaluated v x y ha hj reply decision hr hu out hd =>
    have hcount : ∀ e ∈ v ++ ⟨.post (opaAddress s.pep) (opaInput (s.request.sent v)), reply⟩ ::
        (x ++ y), ∀ count, increment? e = some count → injected v = some count ∨ count = 1 := by
      intro e hm count hc
      rcases List.mem_append.mp hm with hm | hm
      · exact ha.injected_of_mem hm hc
      · have hw := (within_append [.policy, .clock, .resource, .approval] x y).mpr
          ⟨hu.mono (by decide), hd.within.mono (by decide)⟩
        have hs := (within_cons [.policy, .clock, .resource, .approval] _ _).mpr
          ⟨by simp [Call.stage], hw⟩ e hm
        rw [increment?_stage hc] at hs
        exact absurd hs (by decide)
    have he := (hd.ok_iff.mp ho.symm).1
    have hp := hs _ _ _ (List.mem_append_right _ List.mem_cons_self)
    cases hp with
    | unreachable =>
      obtain ⟨at', hx⟩ := hr
      cases hx
      cases he
    | raised => cases hr
    | refused _ _ _ hn =>
      rw [Evaluated, if_neg (Bool.eq_false_iff.mp hn)] at hr
      obtain ⟨at', hx⟩ := hr
      cases hx
      cases he
    | decided input now => exact ⟨v, now, decision, hcount, he, hr⟩

/-! ### The approval gate -/

/-- A policy server whose allowing decisions are those of `nhi/main.rego`. -/
def Faithful (policy : PolicyServer) : Prop :=
  ∀ q decision, Evaluated (.response (policy q).1 (.ok (policy q).2)) (.ok decision) →
    decision.effect = .allow → Main.effect q = .value (.str "ALLOW")

/-- A caller marks its request as approved, by any value but false. -/
def RunArgs.PreApproved (args : RunArgs) : Prop :=
  ∃ v, args.context.lookup "pre_approved" = some v ∧ v ≠ .bool false

/-- The count in the context leaves its other keys alone. -/
theorem sent_context (request : ActionRequest) (v : List Event) {key : String}
    (hk : key ≠ "current_action_count_per_minute") :
    (request.sent v).context.lookup key = request.context.lookup key := by
  rw [ActionRequest.sent]
  split
  · exact Value.lookup_setMember_ne _ _ hk
  · rfl

/-- Of what the gate looks at, a run leaves the mark of the approval to its caller: under any
faithful policy server a handler of a gated request is called only where the caller has marked
it, and the store plays no part. -/
theorem handled_preApproved (hf : Faithful policy)
    (h : Reach (system ι policy) (fun i ↦ (parties i).program rt codec) w₀ t p w)
    {i : ι} {agent : BaseAgent} {pep : PolicyEnforcementPoint} {args : RunArgs}
    (hi : parties i = .run agent pep args) {key : String} {state : AgentState}
    {k : SystemCall.Reply (.agent (.handler key state)) → Prog SystemCall SystemCall.Reply Unit}
    (hp : p i = .call (.agent (.handler key state)) k) {spec : ToolSpec}
    (hs : agent.registry.get args.toolKey = .ok spec)
    (hg : Main.Gated agent.agentType.value spec.action) :
    args.PreApproved := by
  obtain ⟨token, claims, spec', request, u, q, hs', hq, hr, hu, -⟩ := reach_handled h hi hp
  cases hs.symm.trans hs'
  obtain ⟨v, now, decision, -, ha, he⟩ :=
    enforce_decided hr fun _ _ _ hm ↦ (hu _ hm).posted _ _ _ rfl
  obtain ⟨ht, hn, hc⟩ := actionRequest?_eq_some hq
  have hg' : Main.Gated (request.sent v).agentType (request.sent v).action := by
    have hx : (request.sent v).agentType = request.agentType := by
      rw [ActionRequest.sent]
      split <;> rfl
    rw [hx, sent_action, ht, hn]
    exact hg
  obtain ⟨x, hx, hne⟩ := Main.preApproved_of_allow (hf _ decision he ha) hg'
  refine ⟨x, ?_, hne⟩
  rw [sent_context _ _ (by decide), hc, AgentState.withToken, AgentState.setContext,
    AgentState.setContext] at hx
  rw [← hx]
  exact ((Value.lookup_setMember_ne _ _ (by decide)).trans
    (Value.lookup_setMember_ne _ _ (by decide))).symm

end

/-! ### A repaired wire -/

/-- The server that holds `nhi/main.rego`. -/
def mainPolicy : PolicyServer := fun q ↦ dataApi (Main.response q)

/-- The policy as it is allows nothing: every response carries its time as a number, which the
enforcement point refuses. -/
theorem mainPolicy_not_allows {q : Query} {decision : PolicyDecision}
    (h : Evaluated (.response (mainPolicy q).1 (.ok (mainPolicy q).2)) (.ok decision)) :
    decision.effect ≠ .allow := by
  intro ha
  rcases evaluated_policyReply h with ⟨-, hx⟩ | ⟨-, hx⟩ | ⟨-, at', hx⟩
  · cases hx
  · cases hx
  · cases hx
    cases ha

/-- So its allowing decisions are those of the policy. -/
theorem mainPolicy_faithful : Faithful mainPolicy :=
  fun _ _ he ha ↦ absurd ha (mainPolicy_not_allows he)

/-- A reply with the time of the decision as text. -/
def retimed (now : Int) : Eval Value → Nat × Value
  | .value (.obj kvs) =>
    (200, .obj [("result", .obj (Value.setMember kvs "evaluated_at" (.str (toString now))))])
  | r => dataApi r

/-- The policy as it would be with the time of a decision as text. -/
def textTimePolicy : PolicyServer := fun q ↦ retimed q.now (Main.response q)

/-- A response carries the effect, unless it is undefined or a conflict. -/
theorem response_cases (q : Query) :
    Main.response q = .undefined ∨ Main.response q = .error .conflict ∨
      ∃ e r, Main.effect q = .value e ∧ Main.response q = .value (Main.responseObject q e r) := by
  rw [Main.response_eq, Main.effect_eq]
  cases Main.reason q with
  | undefined => exact .inl rfl
  | error e =>
    cases e
    exact .inr (.inl rfl)
  | value r =>
    show (if _ then _ else _) = _ ∨ (if _ then _ else _) = _ ∨ _
    split
    · exact .inr (.inr ⟨_, r, rfl, rfl⟩)
    · exact .inl rfl

/-- Its allowing decisions are those of the policy. -/
theorem textTimePolicy_faithful : Faithful textTimePolicy := by
  intro q decision he ha
  rcases response_cases q with hr | hr | ⟨e, r, hx, hr⟩
  · simp only [textTimePolicy, hr] at he
    cases he
  · simp only [textTimePolicy, hr] at he
    obtain ⟨at', hd⟩ := he
    cases hd
    cases ha
  · simp only [textTimePolicy, hr] at he
    obtain ⟨s, hs, ht⟩ := PolicyDecision.validate?_effect (validate?_of_decodeDecision he.symm)
    rw [ha] at ht
    have hv : e = .str s := Option.some.inj hs
    rw [hx, hv, Decision.ofText?_eq_some_iff.mp ht]
    rfl

/-! ### A deletion -/

/-- An agent that may read and delete objects. -/
def deletingAgent : BaseAgent where
  agentId := "agent-infra-001"
  agentType := .infra
  registry := .ofScopes ["cloud:s3:read", "cloud:s3:delete"]
  sourceIp := "10.0.1.10"
  toolHandlers := ["s3_get_object", "s3_delete_object"]

/-- A tool used on an object, in a context of the caller. -/
def onObject (toolKey : String) (context : List (String × Value)) : Party :=
  .run deletingAgent ⟨"http://localhost:8181", false⟩ {
    toolKey
    resourceArn := "arn:aws:s3:::bucket/key"
    taskId := "task-001"
    environment := "staging"
    context }

/-- The deletion of an object that its caller marks as approved. -/
def deletion : Party := onObject "s3_delete_object" [("pre_approved", .bool true)]

/-- The reply to a POST at time zero. -/
def answered (policy : PolicyServer) : Value → HttpReply
  | .obj [("input", input)] => .response (policy ⟨input, 0⟩).1 (.ok (policy ⟨input, 0⟩).2)
  | _ => .requestError

private theorem answered_sane (policy : PolicyServer) (url : String) (body : Value) :
    Sane policy ⟨.post url body, answered policy body⟩ := by
  unfold answered
  split
  · refine ⟨nofun, ?_⟩
    rintro _ _ _ he
    cases he
    exact .decided _ _
  · refine ⟨nofun, ?_⟩
    rintro _ _ _ he
    cases he
    exact .unreachable _

/-- Replies of services without Redis: the token is active and has the scopes, the policy server
answers, and the resource policy permits. -/
def granting (policy : PolicyServer) : (c : SystemCall) → c.Reply
  | .agent (.introspect _) => .ok (.obj [("active", .bool true),
      ("agent_id", .str "agent-infra-001"), ("scope", .str "cloud:s3:read cloud:s3:delete")])
  | .agent (.pep .connect) => .error "ConnectionError"
  | .agent (.pep (.redis _)) => .error "ConnectionError"
  | .agent (.pep (.post _ body)) => answered policy body
  | c => calm c

/-- A server without keys at time zero. -/
def emptyCluster : Cluster := ⟨fun _ ↦ none, 0⟩

private theorem granting_sane (policy : PolicyServer) (c : Pep.Call) :
    Sane policy ⟨c, granting policy (.agent (.pep c))⟩ := by
  cases c with
  | post url body => exact answered_sane policy url body
  | redis c =>
    refine ⟨?_, nofun⟩
    cases c with
    | setex =>
      intro hr
      exact absurd (Option.some.inj hr) (by decide)
    | _ => nofun
  | _ => exact ⟨nofun, nofun⟩

/-- These replies leave a server as it is. -/
theorem granting_answers (policy : PolicyServer) {w : Cluster} (hw : w.now = 0)
    (c : SystemCall) : w.Answers policy c (granting policy c) w := by
  cases c with
  | agent c =>
    cases c with
    | pep c =>
      cases c with
      | redis c => exact ⟨granting_sane policy _, .inr ⟨⟨_, rfl⟩, .inl rfl⟩⟩
      | clock => exact ⟨hw.symm, rfl⟩
      | _ => exact ⟨granting_sane policy _, rfl⟩
    | clock => exact ⟨hw.symm, rfl⟩
    | _ => rfl
  | queue c =>
    cases c with
    | redis c => exact .inr ⟨⟨_, rfl⟩, .inl rfl⟩
    | clock => exact ⟨hw.symm, rfl⟩
    | uuid4 => rfl

/-- A party on these replies, up to the given number of calls. -/
def play (policy : PolicyServer) (party : Party) (n : Nat) :
    List SystemEvent × Prog SystemCall SystemCall.Reply Unit :=
  (party.program asciiRuntime plainCodec).play (granting policy) n

/-- Whether a tool handler is called next. -/
def nextIsHandler : Prog SystemCall SystemCall.Reply Unit → Bool
  | .call (.agent (.handler ..)) _ => true
  | _ => false

/-- A program that calls a handler next is such a call. -/
theorem exists_of_nextIsHandler {p : Prog SystemCall SystemCall.Reply Unit}
    (h : nextIsHandler p = true) : ∃ key state k, p = .call (.agent (.handler key state)) k := by
  unfold nextIsHandler at h
  split at h
  · exact ⟨_, _, _, rfl⟩
  · cases h

/-- A party of a system that has not begun gets there. -/
theorem reach_play {ι : Type} [DecidableEq ι] {policy : PolicyServer}
    {p₀ p : ι → Prog SystemCall SystemCall.Reply Unit} {t : List (ι × SystemEvent)}
    {w₀ w : Cluster} (h : Reach (system ι policy) p₀ w₀ t p w) (hw : w.now = 0) (i : ι)
    (party : Party) (hp : p i = party.program asciiRuntime plainCodec) (n : Nat) :
    Reach (system ι policy) p₀ w₀ (t ++ (play policy party n).1.map fun e ↦ (i, e))
      (Function.update p i (play policy party n).2) w := by
  obtain ⟨hs, hr⟩ := Prog.steps_play (granting policy) n
    (party.program asciiRuntime plainCodec)
  refine h.go_on i (hp ▸ hs) fun e he ↦ ?_
  rw [hr e he]
  exact granting_answers policy hw e.1

end NhiSentinel.Agents
