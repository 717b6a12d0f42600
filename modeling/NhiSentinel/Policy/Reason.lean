import NhiSentinel.Policy.Decision

/-!
# The reason and the response

`reason` of `nhi/main.rego` check by check: which of its bodies apply at each first
failing check, when two of them apply together, and with it when the response document
is defined.
-/

namespace NhiSentinel.Policy.Main
open NhiSentinel.Base NhiSentinel.Rego NhiSentinel.Pep

/-! ### The reason at each first failing check -/

section
variable {q : Query}

private theorem flag_of {x : Eval Value} {p : Bool} (hx : x = .flag x.holds) (h : x.holds = p) :
    x = .flag p := h ▸ hx

/-- The token check failing. -/
theorem reason_of_token (ht : (validToken q).holds = false) :
    reason q = .value (.str "Token is invalid or agent is not in ACTIVE state") := by
  rw [reason, reasonBodies, flag_of (validToken_flag q) ht]
  rfl

variable (ht : (validToken q).holds = true)
include ht

/-- The scope check failing first. -/
theorem reason_of_scope (hs : (ScopeCheck.actionInScope q).holds = false) :
    reason q = ScopeCheck.denyReason q := by
  rw [reason, reasonBodies, ScopeCheck.denyReason_eq, flag_of (validToken_flag q) ht,
    flag_of (ScopeCheck.actionInScope_flag q) hs]
  rfl

variable (hs : (ScopeCheck.actionInScope q).holds = true)
include hs

/-- The time window failing first. -/
theorem reason_of_window (hw : (TimeWindow.withinWindow q).holds = false) :
    reason q = TimeWindow.denyReason q := by
  rw [reason, reasonBodies, ScopeCheck.denyReason_eq, TimeWindow.denyReason_eq,
    flag_of (validToken_flag q) ht, flag_of (ScopeCheck.actionInScope_flag q) hs,
    flag_of (TimeWindow.withinWindow_flag q) hw]
  rfl

variable (hw : (TimeWindow.withinWindow q).holds = true)
include hw

/-- The task check failing first. -/
theorem reason_of_task (hk : (TaskScope.taskIsActive q).holds = false) :
    reason q = TaskScope.denyReason q := by
  rw [reason, reasonBodies, ScopeCheck.denyReason_eq, TimeWindow.denyReason_eq,
    TaskScope.denyReason_eq, flag_of (validToken_flag q) ht,
    flag_of (ScopeCheck.actionInScope_flag q) hs, flag_of (TimeWindow.withinWindow_flag q) hw,
    flag_of (TaskScope.taskIsActive_flag q) hk]
  rfl

variable (hk : (TaskScope.taskIsActive q).holds = true)
include hk

private theorem reason_of_task_active :
    reason q = defaultRule (.str "Action denied by policy") [
      TaskScope.denyReason q, RateLimit.denyReason q,
      if (RateLimit.withinRateLimit q).holds then DestructiveGate.approvalReason q
      else .undefined] := by
  rw [reason, reasonBodies, ScopeCheck.denyReason_eq, TimeWindow.denyReason_eq,
    TaskScope.denyReason_eq, RateLimit.denyReason_eq, flag_of (validToken_flag q) ht,
    flag_of (ScopeCheck.actionInScope_flag q) hs, flag_of (TimeWindow.withinWindow_flag q) hw,
    flag_of (TaskScope.taskIsActive_flag q) hk, RateLimit.withinRateLimit_flag q]
  rcases DestructiveGate.approvalReason_cases q with ⟨-, -, h⟩ | ⟨-, -, s, -, h⟩ | ⟨-, -, h⟩ <;>
    rw [h] <;> cases (TaskScope.environmentAllowed q).holds <;>
    cases (RateLimit.withinRateLimit q).holds <;> rfl

/-- The rate limit failing first. -/
theorem reason_of_rate (he : (TaskScope.environmentAllowed q).holds = true)
    (hr : (RateLimit.withinRateLimit q).holds = false) :
    reason q = RateLimit.denyReason q := by
  rw [reason_of_task_active ht hs hw hk, TaskScope.denyReason_eq, RateLimit.denyReason_eq, hk, he,
    hr]
  rfl

/-- The environment failing first: a reason only if neither of the later checks fails too. -/
theorem reason_of_environment (he : (TaskScope.environmentAllowed q).holds = false) :
    reason q =
      if (RateLimit.withinRateLimit q).holds = true ∧
          (DestructiveGate.requiresApproval q).holds = false then TaskScope.denyReason q
      else .error .conflict := by
  rw [reason_of_task_active ht hs hw hk, TaskScope.denyReason_eq, RateLimit.denyReason_eq, hk, he]
  cases (RateLimit.withinRateLimit q).holds with
  | false => rfl
  | true =>
    rcases DestructiveGate.approvalReason_cases q with
      ⟨ha, -, h⟩ | ⟨ha, -, s, hm, h⟩ | ⟨ha, -, h⟩
    · rw [h, ha]
      rfl
    · have hn : s ≠ "Environment not in agent's declared allowed environments" := by
        rintro rfl
        revert hm
        decide
      simp [h, ha, defaultRule, rule, outputs, Except.map, hn]
    · rw [h, ha]
      rfl

/-- No check failing: the approval reason, or the default where none is required. -/
theorem reason_of_passes (he : (TaskScope.environmentAllowed q).holds = true)
    (hr : (RateLimit.withinRateLimit q).holds = true) :
    reason q =
      if (DestructiveGate.requiresApproval q).holds then DestructiveGate.approvalReason q
      else .value (.str "Action denied by policy") := by
  rw [reason_of_task_active ht hs hw hk, TaskScope.denyReason_eq, RateLimit.denyReason_eq, hk, he,
    hr]
  rcases DestructiveGate.approvalReason_cases q with ⟨ha, -, h⟩ | ⟨ha, -, s, -, h⟩ | ⟨ha, -, h⟩ <;>
    rw [h, ha] <;> rfl

end

/-! ### Order of the checks -/

/-- The checks in the order in which they are to be reported, with their verdicts and
reasons. -/
def orderedChecks (q : Query) : List (Bool × Eval Value) := [
  ((validToken q).holds, .value (.str "Token is invalid or agent is not in ACTIVE state")),
  ((ScopeCheck.actionInScope q).holds, ScopeCheck.denyReason q),
  ((TimeWindow.withinWindow q).holds, TimeWindow.denyReason q),
  ((TaskScope.taskIsActive q).holds, TaskScope.denyReason q),
  ((TaskScope.environmentAllowed q).holds, TaskScope.denyReason q),
  ((RateLimit.withinRateLimit q).holds, RateLimit.denyReason q),
  (!(DestructiveGate.requiresApproval q).holds, DestructiveGate.approvalReason q)]

/-- The reason of the first failing check. -/
def firstFailing (q : Query) : Option (Eval Value) :=
  ((orderedChecks q).find? fun c ↦ !c.1).map Prod.snd

/-- What is promised of the reasons of a query: no reason rule conflicts, and `reason` is
the reason of the first failing check. -/
structure ReasonLaw (q : Query) : Prop where
  scope : (ScopeCheck.denyReason q).Safe
  window : (TimeWindow.denyReason q).Safe
  task : (TaskScope.denyReason q).Safe
  rate : (RateLimit.denyReason q).Safe
  approval : (DestructiveGate.approvalReason q).Safe
  single : (reason q).Safe
  first : ∀ r, firstFailing q = some r → reason q = r

/-- The environment is refused after the checks before it have passed, and the rate limit
or the approval gate refuses the request as well. -/
def environmentOverlap (q : Query) : Bool :=
  (validToken q).holds && (ScopeCheck.actionInScope q).holds &&
    (TimeWindow.withinWindow q).holds && (TaskScope.taskIsActive q).holds &&
    !(TaskScope.environmentAllowed q).holds &&
    (!(RateLimit.withinRateLimit q).holds || (DestructiveGate.requiresApproval q).holds)

private theorem safe_ite_str {p : Prop} [Decidable p] (x : Eval Value) (h : x.Safe) (s : String) :
    (if p then x else .value (.str s)).Safe := by
  split
  · exact h
  · exact Eval.safe_value _

private theorem reason_first (q : Query) (hx : DestructiveGate.overlap q = false)
    (he : environmentOverlap q = false) :
    (reason q).Safe ∧ ∀ r, firstFailing q = some r → reason q = r := by
  rw [firstFailing, orderedChecks]
  cases ht : (validToken q).holds with
  | false =>
    rw [reason_of_token ht]
    exact ⟨Eval.safe_value _, fun r hr ↦ Option.some.inj hr⟩
  | true =>
  cases hs : (ScopeCheck.actionInScope q).holds with
  | false =>
    rw [reason_of_scope ht hs]
    refine ⟨?_, fun r hr ↦ Option.some.inj hr⟩
    rw [ScopeCheck.denyReason_eq]
    exact safe_ite_str _ Eval.safe_undefined _
  | true =>
  cases hw : (TimeWindow.withinWindow q).holds with
  | false =>
    rw [reason_of_window ht hs hw]
    refine ⟨?_, fun r hr ↦ Option.some.inj hr⟩
    rw [TimeWindow.denyReason_eq]
    exact safe_ite_str _ Eval.safe_undefined _
  | true =>
  cases hk : (TaskScope.taskIsActive q).holds with
  | false =>
    rw [reason_of_task ht hs hw hk]
    refine ⟨?_, fun r hr ↦ Option.some.inj hr⟩
    rw [TaskScope.denyReason_eq]
    exact safe_ite_str _ (safe_ite_str _ Eval.safe_undefined _) _
  | true =>
  cases hv : (TaskScope.environmentAllowed q).holds with
  | false =>
    -- the later checks must not fail too
    rw [environmentOverlap, ht, hs, hw, hk, hv] at he
    simp only [Bool.and_self, Bool.not_false, Bool.true_and, Bool.or_eq_false_iff,
      Bool.not_eq_false'] at he
    rw [reason_of_environment ht hs hw hk hv, if_pos he]
    refine ⟨?_, fun r hr ↦ Option.some.inj hr⟩
    rw [TaskScope.denyReason_eq]
    exact safe_ite_str _ (safe_ite_str _ Eval.safe_undefined _) _
  | true =>
  cases hr : (RateLimit.withinRateLimit q).holds with
  | false =>
    rw [reason_of_rate ht hs hw hk hv hr]
    refine ⟨?_, fun r hr ↦ Option.some.inj hr⟩
    rw [RateLimit.denyReason_eq]
    exact safe_ite_str _ Eval.safe_undefined _
  | true =>
    rw [reason_of_passes ht hs hw hk hv hr]
    rcases DestructiveGate.approvalReason_cases q with ⟨ha, -, h⟩ | ⟨ha, -, s, -, h⟩ | ⟨-, ho, -⟩
    · rw [ha]
      exact ⟨Eval.safe_value _, fun r hr ↦ by cases hr⟩
    · rw [ha, h]
      exact ⟨Eval.safe_value _, fun r hr ↦ Option.some.inj hr⟩
    · rw [hx] at ho
      cases ho

/-- The promise is kept exactly when neither the approval categories overlap nor a refused
environment meets a later refusal. -/
theorem reasonLaw_iff (q : Query) :
    ReasonLaw q ↔ DestructiveGate.overlap q = false ∧ environmentOverlap q = false := by
  constructor
  · intro h
    constructor
    · rcases DestructiveGate.approvalReason_cases q with ⟨-, ho, -⟩ | ⟨-, ho, -⟩ | ⟨-, -, hc⟩
      · exact ho
      · exact ho
      · exact absurd hc (h.approval _)
    · rw [← Bool.not_eq_true]
      intro he
      simp only [environmentOverlap, Bool.and_eq_true, Bool.not_eq_true', Bool.or_eq_true] at he
      obtain ⟨⟨⟨⟨⟨ht, hs⟩, hw⟩, hk⟩, hv⟩, hl⟩ := he
      apply h.single .conflict
      rw [reason_of_environment ht hs hw hk hv, if_neg]
      rintro ⟨hr, ha⟩
      simp [hr, ha] at hl
  · rintro ⟨hx, he⟩
    obtain ⟨hs, hf⟩ := reason_first q hx he
    refine ⟨?_, ?_, ?_, ?_, ?_, hs, hf⟩
    · rw [ScopeCheck.denyReason_eq]
      exact safe_ite_str _ Eval.safe_undefined _
    · rw [TimeWindow.denyReason_eq]
      exact safe_ite_str _ Eval.safe_undefined _
    · rw [TaskScope.denyReason_eq]
      exact safe_ite_str _ (safe_ite_str _ Eval.safe_undefined _) _
    · rw [RateLimit.denyReason_eq]
      exact safe_ite_str _ Eval.safe_undefined _
    · rcases DestructiveGate.approvalReason_cases q with ⟨-, -, h⟩ | ⟨-, -, s, -, h⟩ | ⟨-, ho, -⟩
      · rw [h]
        exact Eval.safe_undefined
      · rw [h]
        exact Eval.safe_value _
      · rw [hx] at ho
        cases ho

/-- A provisioner with valid claims asking to create a user. -/
def createUserRequest : ActionRequest where
  agentId := "agent-provisioner-001"
  agentType := "ProvisionerAgent"
  tokenClaims := [("active", .bool true), ("agent_id", .str "agent-provisioner-001"),
    ("scope", .str "cloud:iam:write")]
  action := "iam:CreateUser"
  resourceArn := "arn:aws:iam:::user/new"
  taskId := "task-001"
  environment := "staging"
  sourceIp := "10.0.1.10"
  resourceTags := []
  context := []

/-- One action in two approval categories makes `approval_reason` and `reason` conflict, and
a refused environment together with an exceeded rate limit makes `reason` conflict. -/
theorem reason_conflicts :
    (DestructiveGate.approvalReason ⟨createUserRequest.dump, 0⟩ = .error .conflict ∧
      reason ⟨createUserRequest.dump, 0⟩ = .error .conflict ∧
      ¬ ReasonLaw ⟨createUserRequest.dump, 0⟩) ∧
    (reason ⟨(describeRequest (describeClaims (.bool true))
        [("allowed_environments", .arr [.str "prod"]),
          ("current_action_count_per_minute", .int 31)]).dump, 0⟩ = .error .conflict ∧
      ¬ ReasonLaw ⟨(describeRequest (describeClaims (.bool true))
        [("allowed_environments", .arr [.str "prod"]),
          ("current_action_count_per_minute", .int 31)]).dump, 0⟩) := by
  have hr : reason ⟨createUserRequest.dump, 0⟩ = .error .conflict := by
    decide +kernel
  have he : reason ⟨(describeRequest (describeClaims (.bool true))
      [("allowed_environments", .arr [.str "prod"]),
        ("current_action_count_per_minute", .int 31)]).dump, 0⟩ = .error .conflict := by
    decide +kernel
  exact ⟨⟨by decide +kernel, hr, fun h ↦ h.single _ hr⟩, he, fun h ↦ h.single _ he⟩

/-! ### The response -/

/-- The five conditions that the response lists. -/
def listedConditions (q : Query) : Bool :=
  (validToken q).holds && (ScopeCheck.actionInScope q).holds &&
    (TimeWindow.withinWindow q).holds && (TaskScope.taskIsActive q).holds &&
    (RateLimit.withinRateLimit q).holds

/-- What is promised of the response of a query: the server answers with a result that
carries the effect and a reason. -/
def Answered (q : Query) : Prop :=
  ∃ result e r, dataApi (response q) = (200, .obj [("result", result)]) ∧
    effect q = .value e ∧ result.get? "effect" = some e ∧
    reason q = .value (.str r) ∧ result.get? "reason" = some (.str r)

private theorem condition_flag (name : String) (p : Bool) :
    condition name (.flag p) =
      if p then .value (.obj [("name", .str name), ("result", .bool true)]) else .undefined := by
  cases p <;> rfl

/-- The response document of a query with the given effect and reason. -/
def responseObject (q : Query) (effect reason : Value) : Value := .obj [
  ("effect", effect),
  ("reason", reason),
  ("policy_ref", .str "nhi.agent.authorization"),
  ("policy_version", .str "2.0.0"),
  ("evaluated_at", .int q.now),
  ("conditions_evaluated", .arr [
    .obj [("name", .str "valid_token"), ("result", .bool true)],
    .obj [("name", .str "action_in_scope"), ("result", .bool true)],
    .obj [("name", .str "within_time_window"), ("result", .bool true)],
    .obj [("name", .str "task_is_active"), ("result", .bool true)],
    .obj [("name", .str "within_rate_limit"), ("result", .bool true)]])]

/-- A defined response lists five true conditions. -/
theorem response_eq (q : Query) :
    response q =
      (effect q).bind fun e ↦ (reason q).bind fun r ↦
        if listedConditions q then .value (responseObject q e r) else .undefined := by
  rw [response, listedConditions]
  rw [validToken_flag q, ScopeCheck.actionInScope_flag q, TimeWindow.withinWindow_flag q,
    TaskScope.taskIsActive_flag q, RateLimit.withinRateLimit_flag q]
  simp only [condition_flag, Eval.holds_flag]
  cases effect q with
  | undefined => rfl
  | error e => rfl
  | value e =>
  cases reason q with
  | undefined => rfl
  | error e => rfl
  | value r =>
    cases (validToken q).holds <;> cases (ScopeCheck.actionInScope q).holds <;>
      cases (TimeWindow.withinWindow q).holds <;> cases (TaskScope.taskIsActive q).holds <;>
      cases (RateLimit.withinRateLimit q).holds <;> rfl

/-- Where the listed conditions hold, the reason is one sentence or a conflict. -/
theorem reason_of_listed {q : Query} (h : listedConditions q = true) :
    (∃ r, reason q = .value (.str r)) ↔
      DestructiveGate.overlap q = false ∧ environmentOverlap q = false := by
  simp only [listedConditions, Bool.and_eq_true] at h
  obtain ⟨⟨⟨⟨ht, hs⟩, hw⟩, hk⟩, hr⟩ := h
  have hc := DestructiveGate.approvalReason_cases q
  simp only [environmentOverlap, ht, hs, hw, hk, hr, Bool.and_self, Bool.true_and, Bool.not_true,
    Bool.false_or]
  cases he : (TaskScope.environmentAllowed q).holds with
  | false =>
    rw [reason_of_environment ht hs hw hk he, TaskScope.denyReason_eq, hk, he, hr]
    rcases hc with ⟨ha, ho, -⟩ | ⟨ha, ho, -⟩ | ⟨ha, ho, -⟩ <;> simp [ha, ho]
  | true =>
    rw [reason_of_passes ht hs hw hk he hr]
    rcases hc with ⟨ha, ho, h⟩ | ⟨ha, ho, r, -, h⟩ | ⟨ha, ho, h⟩ <;> simp [ha, ho, h]

/-- The server answers with a result exactly when the five listed conditions hold and the
reason does not conflict: every other query, denials included, gets no result. -/
theorem answered_iff (q : Query) :
    Answered q ↔
      listedConditions q = true ∧ DestructiveGate.overlap q = false ∧
        environmentOverlap q = false := by
  constructor
  · rintro ⟨result, e, r, hd, -, -, hr, -⟩
    have hl : listedConditions q = true := by
      rw [← Bool.not_eq_false]
      intro hn
      rw [response_eq, effect_eq, hr, hn] at hd
      cases hd
    exact ⟨hl, (reason_of_listed hl).mp ⟨r, hr⟩⟩
  · rintro ⟨hl, ho⟩
    obtain ⟨r, hr⟩ := (reason_of_listed hl).mpr ho
    have he := effect_eq q
    refine ⟨responseObject q _ (.str r), _, r, ?_, he, rfl, hr, rfl⟩
    rw [response_eq, he, hr, hl]
    rfl

/-- A request without token claims is denied, and the server answers without a result. -/
theorem denied_without_result :
    effect ⟨(describeRequest [] []).dump, 0⟩ = .value (.str "DENY") ∧
      dataApi (response ⟨(describeRequest [] []).dump, 0⟩) = (200, .obj []) ∧
      ¬ Answered ⟨(describeRequest [] []).dump, 0⟩ := by
  have hl : listedConditions ⟨(describeRequest [] []).dump, 0⟩ = false := by decide
  refine ⟨by decide, by decide, fun h ↦ ?_⟩
  rw [((answered_iff _).mp h).1] at hl
  cases hl

end NhiSentinel.Policy.Main
