import NhiSentinel.Agents.Trail
import NhiSentinel.Anomaly.Scorer
import NhiSentinel.Audit.Api

/-!
# The record of a run

What the events of a run say about it, to a reader, to the features of the anomaly detection and
to a query of the audit store: the outcome of its decision and the action that was asked for.
-/

namespace NhiSentinel.Agents
open NhiSentinel.Base NhiSentinel.Pep NhiSentinel.Audit NhiSentinel.Anomaly

section
variable {rt : Runtime}

/-! ### Outcomes -/

namespace AgentRun

/-- The registry refused the tool, or the enforcement point denied. -/
def Denied (r : AgentRun rt) : Prop :=
  (introspected r.trace ≠ [] ∧ ∃ message, r.agent.registry.get r.args.toolKey = .error message) ∨
    ∃ action reason policyRef, r.Enforced (.error (.policyDenial action reason policyRef))

/-- The enforcement point required an approval. -/
def Escalated (r : AgentRun rt) : Prop :=
  ∃ action resourceArn requestId,
    r.Enforced (.error (.approvalRequired action resourceArn requestId))

end AgentRun

/-! ### Events -/

private theorem resultEvent_decision {agent : BaseAgent} {state : AgentState}
    (result : Option (List (String × Value))) (eventId : String) (timestamp : Nat) :
    (resultEvent rt agent state result eventId timestamp).decision = "EXECUTED" ∨
      (resultEvent rt agent state result eventId timestamp).decision = "EXECUTION_FAILED" := by
  rw [resultEvent]
  cases isBlank state.error
  · exact .inr rfl
  · exact .inl rfl

private theorem Executed.unpublished {agent : BaseAgent} {s s' : Session} {t : List AgentEvent}
    (h : Executed agent s t s') : published t = [] := by
  cases h <;> rfl

/-- What is published after a decision is a result. -/
theorem Followed.results {agent : BaseAgent} {s : Session} {t : List AgentEvent}
    {out : Except PyExn Unit} (h : Followed rt agent s t out) :
    ∀ event ∈ published t, event.decision = "EXECUTED" ∨ event.decision = "EXECUTION_FAILED" := by
  intro event hm
  cases h with
  | blocked => exact absurd hm List.not_mem_nil
  | executed _ he ha =>
    rw [published_append, he.unpublished] at hm
    cases ha with
    | invalid => exact absurd hm List.not_mem_nil
    | published result _ eventId timestamp =>
      cases List.mem_singleton.mp hm
      exact resultEvent_decision result eventId timestamp

/-- What a node publishes is an event of its agent, at a time in UTC. -/
theorem Followed.own {agent : BaseAgent} {s : Session} {t : List AgentEvent}
    {out : Except PyExn Unit} (h : Followed rt agent s t out) :
    ∀ event ∈ published t,
      event.agentId = agent.agentId ∧ event.timestamp.utcoffset = some 0 := by
  intro event hm
  cases h with
  | blocked => exact absurd hm List.not_mem_nil
  | executed _ he ha =>
    rw [published_append, he.unpublished] at hm
    cases ha with
    | invalid => exact absurd hm List.not_mem_nil
    | published =>
      cases List.mem_singleton.mp hm
      exact ⟨rfl, rfl⟩

/-- A run asks for nothing and leaves no event, or leaves its decision and then results. -/
theorem AgentRun.published_cases (r : AgentRun rt) :
    published r.trace = [] ∧ r.request? = none ∧ ¬ r.Denied ∨
      ∃ checked eventId timestamp after,
        published r.trace = decisionEvent r.agent checked eventId timestamp :: after ∧
        checked.action = r.args.toolKey ∧ introspected r.trace ≠ [] ∧
        r.Judged checked.decision checked.error ∧
        ∀ event ∈ after, event.decision = "EXECUTED" ∨ event.decision = "EXECUTION_FAILED" := by
  cases r.course with
  | unfetched hi hq =>
    have hn : r.request? = none := by
      rw [request?, hi]
      rfl
    refine .inl ⟨hq.1, hn, ?_⟩
    rintro (⟨h, -⟩ | ⟨_, _, _, request, _, hr, -⟩)
    · exact h hi
    · cases hn.symm.trans hr
  | invalid token claims hi spec hg hr hq =>
    have hn : r.request? = none := (request?_eq hi hg).trans hr
    refine .inl ⟨hq.1, hn, ?_⟩
    rintro (⟨-, message, h⟩ | ⟨_, _, _, request, _, hr, -⟩)
    · cases hg.symm.trans h
    · cases hn.symm.trans hr
  | audited token claims before after checked eventId timestamp ht hi hq _ ha _ _ _ _ hj p hf =>
    refine .inr ⟨checked, eventId, timestamp, published after, ?_, ha, ?_, hj, hf.results⟩
    · rw [ht, published_append, hq.1]
      rfl
    · rw [ht, introspected_append, hi]
      exact List.cons_ne_nil _ _

/-- The events of a run have the identity of its agent and UTC time. -/
theorem AgentRun.published_own (r : AgentRun rt) :
    ∀ event ∈ published r.trace,
      event.agentId = r.agent.agentId ∧ event.timestamp.utcoffset = some 0 := by
  intro event hm
  cases r.course with
  | unfetched _ hq | invalid _ _ _ _ _ _ hq => exact absurd (hq.1 ▸ hm) List.not_mem_nil
  | audited _ _ before after checked eventId timestamp ht _ hq _ _ _ _ _ _ _ _ hf =>
    rw [ht, published_append, hq.1] at hm
    rcases List.mem_cons.mp hm with rfl | hm
    · exact ⟨rfl, rfl⟩
    · exact hf.own event hm

/-! ### Decisions -/

section
variable (other : String → String) (sha256 : String → String)
  (dumps : List (String × Value) → String)

/-- The query finds the row of an event that the producer completes. -/
def FoundBy (query : EventQuery) (producer : AuditProducer) (event : AuditEvent) : Prop :=
  query.finds other ((producer.complete sha256 event).row dumps) = true

/-- The events of a run encode its outcome: in the word of the decision, in the count of denied
attempts and in the answers to queries. -/
structure AgentRun.Recorded (r : AgentRun rt) : Prop where
  allowed : r.Enforced (.ok ()) → ∃ event ∈ r.decisionEvent?, event.decision = "ALLOW"
  denied : r.Denied → ∃ event ∈ r.decisionEvent?, event.decision = "DENY"
  escalated : r.Escalated → ∃ event ∈ r.decisionEvent?, event.decision = "REQUIRE_APPROVAL"
  counted : ∀ event ∈ published r.trace,
    (extractFeatures other event).isDeny = 1 ↔ event ∈ r.decisionEvent? ∧ r.Denied
  deniedFound : ∀ event ∈ published r.trace, ∀ producer,
    FoundBy other sha256 dumps { decision := some "DENY" } producer event ↔
      event ∈ r.decisionEvent? ∧ r.Denied
  escalatedFound : ∀ event ∈ published r.trace, ∀ producer,
    FoundBy other sha256 dumps { decision := some "REQUIRE_APPROVAL" } producer event ↔
      event ∈ r.decisionEvent? ∧ r.Escalated

end

/-- The enforcement point neither denied nor required an approval, and no exception on the way
had the name of such a decision. -/
structure AgentRun.Distinct (r : AgentRun rt) : Prop where
  notDenied (action reason policyRef : String) :
    ¬ r.Enforced (.error (.policyDenial action reason policyRef))
  notEscalated : ¬ r.Escalated
  named : ∀ cls ∈ ["DENY", "REQUIRE_APPROVAL"], ¬ r.Enforced (.error (.other cls))

section
variable {other : String → String} {sha256 : String → String}
  {dumps : List (String × Value) → String} {r : AgentRun rt}

private theorem foundBy_decision_iff {word : String} (hw : word ≠ "")
    (ha : word.toList.all (·.toNat < 0x80) = true)
    (hu : word.toList.map Char.toUpper = word.toList) (producer : AuditProducer)
    (event : AuditEvent) :
    FoundBy other sha256 dumps { decision := some word } producer event ↔
      event.decision = word := by
  have hc : ({ decision := some word } : EventQuery).conditions other = [.decision word] := by
    simp [EventQuery.conditions, hw, Python.upper_eq_self other ha hu]
  rw [FoundBy, EventQuery.finds, hc, List.all_cons, List.all_nil, Bool.and_true]
  exact decide_eq_true_iff

private theorem foundBy_deny_iff (producer : AuditProducer) (event : AuditEvent) :
    FoundBy other sha256 dumps { decision := some "DENY" } producer event ↔
      event.decision = "DENY" :=
  foundBy_decision_iff (by decide) (by decide) (by decide) producer event

private theorem foundBy_requireApproval_iff (producer : AuditProducer) (event : AuditEvent) :
    FoundBy other sha256 dumps { decision := some "REQUIRE_APPROVAL" } producer event ↔
      event.decision = "REQUIRE_APPROVAL" :=
  foundBy_decision_iff (by decide) (by decide) (by decide) producer event

private theorem recorded_of_words {decision : AuditEvent} {after : List AuditEvent}
    (hp : published r.trace = decision :: after)
    (ha : ∀ event ∈ after, event.decision = "EXECUTED" ∨ event.decision = "EXECUTION_FAILED")
    (hallow : r.Enforced (.ok ()) → decision.decision = "ALLOW")
    (hdeny : r.Denied ↔ decision.decision = "DENY")
    (happroval : r.Escalated ↔ decision.decision = "REQUIRE_APPROVAL") :
    r.Recorded other sha256 dumps := by
  have hd : r.decisionEvent? = some decision := by
    rw [AgentRun.decisionEvent?, hp]
    rfl
  have hword {word : String} {p : Prop} (hw : p ↔ decision.decision = word)
      (he : word ≠ "EXECUTED") (hf : word ≠ "EXECUTION_FAILED") :
      ∀ event ∈ published r.trace, event.decision = word ↔ event ∈ r.decisionEvent? ∧ p := by
    intro event hm
    rw [hd, Option.mem_some_iff, hw]
    constructor
    · intro h
      rcases List.mem_cons.mp (hp ▸ hm) with rfl | hm
      · exact ⟨rfl, h⟩
      · rcases ha event hm with hx | hx
        · exact absurd (h.symm.trans hx) he
        · exact absurd (h.symm.trans hx) hf
    · intro ⟨h, hx⟩
      exact h ▸ hx
  refine ⟨fun h ↦ ⟨decision, hd, hallow h⟩, fun h ↦ ⟨decision, hd, hdeny.mp h⟩,
    fun h ↦ ⟨decision, hd, happroval.mp h⟩, fun event hm ↦ ?_, fun event hm producer ↦ ?_,
    fun event hm producer ↦ ?_⟩
  · rw [isDeny_eq_one_iff]
    exact hword hdeny (by decide) (by decide) event hm
  · rw [foundBy_deny_iff]
    exact hword hdeny (by decide) (by decide) event hm
  · rw [foundBy_requireApproval_iff]
    exact hword happroval (by decide) (by decide) event hm

/-- The decision of a word that is no class of the enforcement point comes from the registry, from
an enforcement that returned, or from an exception of that name. -/
theorem AgentRun.Judged.of_word {word : String} {error : Option String}
    (h : r.Judged (some word) error) (hd : word ≠ "PolicyDenialError")
    (ha : word ≠ "ApprovalRequiredError") :
    (word = "DENY" ∧ ∃ message, r.agent.registry.get r.args.toolKey = .error message) ∨
      (word = "ALLOW" ∧ r.Enforced (.ok ())) ∨ r.Enforced (.error (.other word)) := by
  generalize hw : some word = decision at h
  cases h with
  | refused message hg => exact .inl ⟨Option.some.inj hw, message, hg⟩
  | returned he => exact .inr (.inl ⟨Option.some.inj hw, he⟩)
  | raised e text he =>
    have hn := eq_other_of_exceptionName (Option.some.inj hw).symm hd ha
    exact .inr (.inr (hn ▸ he))

/-- An exception of an enforcement is recorded under its name. -/
theorem AgentRun.Enforced.recorded {e : PyExn} (h : r.Enforced (.error e)) :
    ∃ event ∈ published r.trace, r.decisionEvent? = some event ∧
      event.decision = orElse (some (exceptionName e)) "UNKNOWN" := by
  rcases r.published_cases with ⟨-, hr, -⟩ | ⟨checked, eventId, timestamp, after, hp, -, -, hj, -⟩
  · obtain ⟨request, _, hx, -⟩ := h
    cases hr.symm.trans hx
  · refine ⟨decisionEvent r.agent checked eventId timestamp, hp ▸ List.mem_cons_self, ?_, ?_⟩
    · rw [AgentRun.decisionEvent?, hp]
      rfl
    · rw [← hj.of_error h]
      rfl

private theorem AgentRun.Denied.get_eq_error (h : r.Denied)
    (hn : ∀ action reason policyRef,
      ¬ r.Enforced (.error (.policyDenial action reason policyRef))) :
    ∃ message, r.agent.registry.get r.args.toolKey = .error message := by
  cases h with
  | inl hg => exact hg.2
  | inr hx =>
    obtain ⟨_, _, _, hx⟩ := hx
    exact absurd hx (hn _ _ _)

private theorem AgentRun.Recorded.distinct (h : r.Recorded other sha256 dumps) : r.Distinct := by
  have hdeny (action reason policyRef : String) :
      ¬ r.Enforced (.error (.policyDenial action reason policyRef)) := by
    intro hx
    obtain ⟨event, -, hd, hw⟩ := hx.recorded
    obtain ⟨event', hd', hw'⟩ := h.denied (.inr ⟨_, _, _, hx⟩)
    cases hd.symm.trans hd'
    have hne : "PolicyDenialError" = "DENY" := hw.symm.trans hw'
    exact absurd hne (by decide)
  have happroval : ¬ r.Escalated := by
    intro hx
    obtain ⟨_, _, _, he⟩ := hx
    obtain ⟨event, -, hd, hw⟩ := he.recorded
    obtain ⟨event', hd', hw'⟩ := h.escalated ⟨_, _, _, he⟩
    cases hd.symm.trans hd'
    have hne : "ApprovalRequiredError" = "REQUIRE_APPROVAL" := hw.symm.trans hw'
    exact absurd hne (by decide)
  refine ⟨hdeny, happroval, ?_⟩
  simp only [List.forall_mem_cons]
  refine ⟨fun hx ↦ ?_, fun hx ↦ ?_, fun _ hc ↦ absurd hc List.not_mem_nil⟩
  · obtain ⟨event, hm, -, hw⟩ := hx.recorded
    have hd := ((h.counted event hm).mp ((isDeny_eq_one_iff other event).mpr hw)).2
    obtain ⟨message, hg⟩ := hd.get_eq_error hdeny
    exact hx.get_ne_error message hg
  · obtain ⟨event, hm, -, hw⟩ := hx.recorded
    exact happroval ((h.escalatedFound event hm (.new true)).mp
      ((foundBy_requireApproval_iff _ event).mpr hw)).2

private theorem AgentRun.Distinct.recorded (h : r.Distinct) : r.Recorded other sha256 dumps := by
  rcases r.published_cases with
    ⟨hp, hr, hn⟩ | ⟨checked, eventId, timestamp, after, hp, -, hi, hj, ha⟩
  · have hx (out : Except PyExn Unit) : ¬ r.Enforced out := by
      intro ⟨request, _, h, _⟩
      cases hr.symm.trans h
    have hm (event : AuditEvent) : event ∉ published r.trace := hp ▸ List.not_mem_nil
    exact ⟨fun h ↦ absurd h (hx _), fun h ↦ absurd h hn, fun hx ↦ absurd hx h.notEscalated,
      fun event h ↦ absurd h (hm event), fun event h ↦ absurd h (hm event),
      fun event h ↦ absurd h (hm event)⟩
  apply recorded_of_words hp ha
  · intro hx
    exact (decision_eq_iff (by decide) (by decide)).mpr (hj.of_ok hx).1
  · rw [decision_eq_iff (by decide) (by decide)]
    constructor
    · intro hd
      obtain ⟨message, hg⟩ := hd.get_eq_error h.notDenied
      generalize checked.decision = decision, checked.error = error at hj
      cases hj with
      | refused => rfl
      | returned hx | raised _ _ hx => exact absurd hg (hx.get_ne_error message)
    · intro hw
      rcases AgentRun.Judged.of_word (hw ▸ hj) (by decide) (by decide) with ⟨-, hg⟩ | ⟨hx, -⟩ | hx
      · exact .inl ⟨hi, hg⟩
      · exact absurd hx (by decide)
      · exact absurd hx (h.named _ (by decide))
  · rw [decision_eq_iff (by decide) (by decide)]
    constructor
    · intro hx
      exact absurd hx h.notEscalated
    · intro hw
      rcases AgentRun.Judged.of_word (hw ▸ hj) (by decide) (by decide) with ⟨hx, -⟩ | ⟨hx, -⟩ | hx
      · exact absurd hx (by decide)
      · exact absurd hx (by decide)
      · exact absurd hx (h.named _ (by decide))

/-- A run is recorded exactly when the enforcement point did not decide against it. -/
theorem recorded_iff_distinct : r.Recorded other sha256 dumps ↔ r.Distinct :=
  ⟨fun h ↦ h.distinct, fun h ↦ h.recorded⟩

/-- A history of runs is recorded exactly when no run was denied or escalated by the enforcement
point. -/
theorem runs_recorded_iff (other sha256 : String → String)
    (dumps : List (String × Value) → String) (runs : List (AgentRun rt)) :
    (∀ r ∈ runs, r.Recorded other sha256 dumps) ↔ ∀ r ∈ runs, r.Distinct :=
  forall₂_congr fun _ _ ↦ recorded_iff_distinct

end

/-- The run of a reading that the policy denies. -/
def deniedRun : AgentRun asciiRuntime := objectRun (decided "DENY") (.ok (.other .null))

/-- The denial is recorded under the name of its exception. -/
theorem deniedRun_unrecorded :
    deniedRun.Denied ∧ (published deniedRun.trace).map AuditEvent.decision = ["PolicyDenialError"] ∧
      ¬ deniedRun.Recorded id id fun _ ↦ "" := by
  have hd : deniedRun.Enforced (.error (.policyDenial "s3:GetObject" "Action denied by policy"
      "nhi.agent.authorization")) :=
    ⟨_, _, rfl, Py.run_exec (services (decided "DENY") 0) (enforce asciiRuntime) _⟩
  refine ⟨.inr ⟨_, _, _, hd⟩, by decide +kernel, fun h ↦ ?_⟩
  exact (recorded_iff_distinct.mp h).notDenied _ _ _ hd

/-! ### Actions -/

/-- The tools of the catalog have keys without a service, and actions of known services. -/
theorem catalog_apart : ∀ entry ∈ toolCatalog,
    ':' ∉ entry.1.toList ∧ entry.1 ≠ entry.2.action ∧ entry.2.action ≠ "" ∧
      entry.2.action.toList.all (·.toNat < 0x80) = true ∧ actionService id entry.2.action ≠ 1 ∧
      like (entry.2.action ++ "%").toList entry.1.toList = false := by
  decide +kernel

private theorem foundBy_action_iff {other sha256 : String → String}
    {dumps : List (String × Value) → String} {action : String} (ha : action ≠ "")
    (producer : AuditProducer) (event : AuditEvent) :
    FoundBy other sha256 dumps { action := some action } producer event ↔
      like (action ++ "%").toList event.action.toList = true := by
  have hc : ({ action := some action } : EventQuery).conditions other =
      [.action (action ++ "%")] := by
    simp [EventQuery.conditions, ha]
  rw [FoundBy, EventQuery.finds, hc, List.all_cons, List.all_nil, Bool.and_true]
  rfl

/-- The decision of a run that reaches the enforcement point is never recorded under the action of
the request: not to a reader, not in the index of its service, and not to a query for actions
that begin so. -/
theorem decision_names_other_action (other sha256 : String → String)
    (dumps : List (String × Value) → String) {r : AgentRun rt} (scopes : List String)
    (hs : r.agent.registry = .ofScopes scopes) {request : ActionRequest}
    (h : r.request? = some request) :
    ∃ event ∈ r.decisionEvent?, event.action ≠ request.action ∧
      (extractFeatures other event).actionSvc ≠ actionService other request.action ∧
      ∀ producer,
        ¬ FoundBy other sha256 dumps { action := some request.action } producer event := by
  rcases r.published_cases with ⟨-, hn, -⟩ | ⟨checked, eventId, timestamp, after, hp, ha, -⟩
  · cases hn.symm.trans h
  obtain ⟨spec, hg, hr⟩ := AgentRun.registered h
  rw [hs, ToolRegistry.get_ofScopes_eq_ok_iff] at hg
  obtain ⟨hkey, hne, hempty, hascii, hsvc, hlike⟩ := catalog_apart _ hg.1
  have haction : (decisionEvent r.agent checked eventId timestamp).action = r.args.toolKey := ha
  refine ⟨decisionEvent r.agent checked eventId timestamp, ?_, ?_, ?_, fun producer ↦ ?_⟩
  · rw [AgentRun.decisionEvent?, hp]
    rfl
  · rw [haction, hr]
    exact hne
  · show actionService other (decisionEvent r.agent checked eventId timestamp).action ≠ _
    rw [haction, hr, actionService_of_not_mem other hkey, actionService_congr other id hascii]
    exact hsvc.symm
  · rw [hr, foundBy_action_iff hempty, haction, hlike]
    exact Bool.false_ne_true

/-- The request of the reading. -/
def objectRequest : ActionRequest where
  agentId := "agent-infra-001"
  agentType := "InfraAgent"
  tokenClaims := []
  action := "s3:GetObject"
  resourceArn := "arn:aws:s3:::bucket/key"
  taskId := "task-001"
  environment := "staging"
  sourceIp := "10.0.1.10"
  resourceTags := []
  context := [("_token_claims", .obj []), ("_token", .str "token")]

/-- A run that is allowed and reaches its handler. -/
theorem decision_names_other_action_allowed :
    ∃ event ∈ allowedRun.decisionEvent?, event.action ≠ objectRequest.action ∧
      (extractFeatures id event).actionSvc ≠ actionService id objectRequest.action ∧
      ∀ producer,
        ¬ FoundBy id id (fun _ ↦ "") { action := some objectRequest.action } producer event :=
  decision_names_other_action id id (fun _ ↦ "") (r := allowedRun) ["cloud:s3:read"] rfl rfl

/-- Both events of the reading have the key of the tool as their action. -/
theorem allowedRun_actions :
    allowedRun.request?.map ActionRequest.action = some "s3:GetObject" ∧
      (published allowedRun.trace).map AuditEvent.action = ["s3_get_object", "s3_get_object"] := by
  decide +kernel

end
end NhiSentinel.Agents
