import NhiSentinel.Base.Rego

/-!
# The imported policy modules

One namespace for each package under `policy/rego/nhi`: scope, time window, task and
environment, rate limit, and the approval gate. A rule is a function of the query it is
evaluated in; a rule whose only value is true comes with its reading as a flag, and a
`deny_reason` with its value in terms of the flags it tests.
-/

namespace NhiSentinel.Policy
open NhiSentinel.Base NhiSentinel.Rego

/-- One evaluation: the input document and `time.now_ns()`, which is read once. -/
structure Query where
  input : Value
  now : Int

namespace Query

/-- The reference `input.k₁.k₂…`. -/
def ref (q : Query) (path : List String) : Eval Value := .ofOption (q.input.path? path)

/-- Reading the input is without errors. -/
theorem safe_ref (q : Query) (path : List String) : (q.ref path).Safe := Eval.safe_ofOption _

end Query

/-! ### Scope -/

namespace ScopeCheck

/-- `action_scope_map`, `scope_check.rego:7`. -/
def actionScopeMap : List (String × String) := [
  ("s3:ListBuckets", "cloud:s3:list"),
  ("s3:GetObject", "cloud:s3:read"),
  ("s3:PutObject", "cloud:s3:write"),
  ("s3:DeleteObject", "cloud:s3:delete"),
  ("s3:DeleteBucket", "cloud:s3:delete"),
  ("ec2:DescribeInstances", "cloud:ec2:describe"),
  ("ec2:DescribeSecurityGroups", "cloud:ec2:describe"),
  ("ec2:TerminateInstances", "cloud:ec2:terminate"),
  ("ec2:StartInstances", "cloud:ec2:start"),
  ("iam:ListRoles", "cloud:iam:read"),
  ("iam:CreateRole", "cloud:iam:create-role"),
  ("iam:AttachRolePolicy", "cloud:iam:create-role"),
  ("iam:CreateUser", "cloud:iam:write"),
  ("iam:DeleteRole", "cloud:iam:write"),
  ("securityhub:GetFindings", "cloud:securityhub:read"),
  ("guardduty:ListFindings", "cloud:guardduty:read"),
  ("config:DescribeComplianceByResource", "cloud:config:read"),
  ("cloudtrail:LookupEvents", "cloud:cloudtrail:read")]

/-- `action_scope_map[input.action]`. -/
def mappedScope (q : Query) : Eval Value := do lookup actionScopeMap (← q.ref ["action"])

/-- `required_scope(action)`, undefined for an unknown action; `scope_check.rego:29`. -/
def requiredScope (action : Value) : Eval Value := lookup actionScopeMap action

/-- The required scope occurs in the `scope` string; `scope_check.rego:35`. -/
def inScopeString (q : Query) : Eval Unit := do
  let reqScope ← requiredScope (← q.ref ["action"])
  Eval.check (contains (← q.ref ["token_claims", "scope"]) reqScope)

/-- The required scope is an element of `scopes`; `scope_check.rego:40`. -/
def inScopeArray (q : Query) : Eval Unit := do
  let reqScope ← requiredScope (← q.ref ["action"])
  Eval.guard (reqScope ∈ (← q.ref ["token_claims", "scopes"]).elems)

/-- `action_in_scope`, `scope_check.rego:35–43`. -/
def actionInScope (q : Query) : Eval Value := flagRule [inScopeString q, inScopeArray q]

/-- `scope_check.deny_reason`, `scope_check.rego:46–53`. -/
def denyReason (q : Query) : Eval Value := rule [
  body (Eval.naf (mappedScope q)) (.value (.str "Action is not registered in the scope map")),
  body (do Eval.check (mappedScope q); Eval.naf (actionInScope q))
    (.value (.str "Required scope not present in token"))]

private theorem actionInScope_safe (q : Query) :
    Eval.AllSafe [inScopeString q, inScopeArray q] :=
  ⟨(q.safe_ref _).bind fun _ ↦ (safe_lookup _ _).bind fun _ ↦
      (q.safe_ref _).bind fun _ ↦ (safe_contains _ _).check,
    (q.safe_ref _).bind fun _ ↦ (safe_lookup _ _).bind fun _ ↦
      (q.safe_ref _).bind fun _ ↦ Eval.safe_guard _, trivial⟩

/-- The check of the scope is `true` or undefined. -/
theorem actionInScope_flag (q : Query) : actionInScope q = .flag (actionInScope q).holds :=
  Eval.flagRule_flag (actionInScope_safe q)

/-- An action is in scope by the string form or by the array form. -/
theorem holds_actionInScope (q : Query) :
    (actionInScope q).holds = ((inScopeString q).succeeds || (inScopeArray q).succeeds) := by
  rw [actionInScope, Eval.holds_flagRule (actionInScope_safe q)]
  simp

/-- The mapped scope is a string wherever it is defined. -/
theorem mappedScope_eq (q : Query) :
    mappedScope q = .undefined ∨ ∃ s, mappedScope q = .value (.str s) := by
  rw [mappedScope, Query.ref]
  cases q.input.path? ["action"] with
  | none => exact .inl rfl
  | some v =>
    rw [Eval.ofOption_some, Eval.bind_value]
    cases v with
    | str a =>
      rw [lookup]
      cases actionScopeMap.lookup a with
      | none => exact .inl rfl
      | some s => exact .inr ⟨s, rfl⟩
    | _ => exact .inl rfl

/-- No unmapped action is in scope. -/
theorem actionInScope_of_unmapped (q : Query) (h : mappedScope q = .undefined) :
    (actionInScope q).holds = false := by
  rw [holds_actionInScope]
  rw [mappedScope] at h
  cases ha : q.ref ["action"] with
  | undefined => simp [inScopeString, inScopeArray, ha, Eval.succeeds]
  | value a =>
    rw [ha, Eval.bind_value] at h
    simp [inScopeString, inScopeArray, requiredScope, ha, h, Eval.succeeds]
  | error e => exact absurd ha (q.safe_ref _ e)

/-- Out of scope exactly one of the two reasons applies, in scope none does. -/
theorem denyReason_eq (q : Query) :
    denyReason q =
      if (actionInScope q).holds then .undefined
      else .value (.str (if mappedScope q = .undefined then
          "Action is not registered in the scope map"
        else "Required scope not present in token")) := by
  rw [denyReason, actionInScope_flag q]
  rcases mappedScope_eq q with h | ⟨s, h⟩
  · rw [actionInScope_of_unmapped q h, h]
    rfl
  · rw [h]
    cases (actionInScope q).holds <;> rfl

end ScopeCheck

/-! ### Time window -/

namespace TimeWindow

/-- No time window is declared. -/
def undeclared (q : Query) : Eval Unit := Eval.naf (q.ref ["context", "time_window"])

/-- A SecOpsAgent working on an incident is exempt. -/
def exempt (q : Query) : Eval Unit := do
  Eval.equals (q.ref ["agent_type"]) (.value (.str "SecOpsAgent"))
  Eval.check (q.ref ["context", "incident_id"])

/-- The current hour lies in the declared window. -/
def inside (q : Query) : Eval Unit := do
  let tw ← q.ref ["context", "time_window"]
  let currentHour := clockHour q.now
  Eval.guard (ge currentHour (← Eval.ofOption (tw.get? "start_hour_utc")))
  Eval.guard (lt currentHour (← Eval.ofOption (tw.get? "end_hour_utc")))

/-- `within_window`, `time_window.rego:8–24`. -/
def withinWindow (q : Query) : Eval Value := flagRule [undeclared q, exempt q, inside q]

/-- `time_window.deny_reason`, `time_window.rego:26`. -/
def denyReason (q : Query) : Eval Value := rule [
  body (Eval.naf (withinWindow q))
    (.value (.str "Action is outside the agent's declared operating time window"))]

private theorem withinWindow_safe (q : Query) :
    Eval.AllSafe [undeclared q, exempt q, inside q] :=
  ⟨(q.safe_ref _).naf,
    ((q.safe_ref _).equals (Eval.safe_value _)).bind fun _ ↦ (q.safe_ref _).check,
    (q.safe_ref _).bind fun _ ↦ (Eval.safe_ofOption _).bind fun _ ↦
      (Eval.safe_guard _).bind fun _ ↦ (Eval.safe_ofOption _).bind fun _ ↦ Eval.safe_guard _,
    trivial⟩

/-- The check of the time window is `true` or undefined. -/
theorem withinWindow_flag (q : Query) : withinWindow q = .flag (withinWindow q).holds :=
  Eval.flagRule_flag (withinWindow_safe q)

/-- A request is within the window without one, on an incident, or inside of it. -/
theorem holds_withinWindow (q : Query) :
    (withinWindow q).holds =
      ((undeclared q).succeeds || (exempt q).succeeds || (inside q).succeeds) := by
  rw [withinWindow, Eval.holds_flagRule (withinWindow_safe q)]
  simp [Bool.or_assoc]

/-- The reason applies outside the window. -/
theorem denyReason_eq (q : Query) :
    denyReason q =
      if (withinWindow q).holds then .undefined
      else .value (.str "Action is outside the agent's declared operating time window") := by
  rw [denyReason, withinWindow_flag q]
  cases (withinWindow q).holds <;> rfl

end TimeWindow

/-! ### Task and environment -/

namespace TaskScope

/-- `task_is_active`, `task_scope.rego:9`. -/
def taskIsActive (q : Query) : Eval Value := flagRule [
  do Eval.guard (lt (.int 0) (← count (← q.ref ["task_id"])))]

/-- No environments are declared. -/
def undeclared (q : Query) : Eval Unit := Eval.naf (q.ref ["context", "allowed_environments"])

/-- The environment is one of the declared ones. -/
def declared (q : Query) : Eval Unit := do
  let environment ← q.ref ["environment"]
  Eval.guard (environment ∈ (← q.ref ["context", "allowed_environments"]).elems)

/-- `environment_allowed`, `task_scope.rego:16–22`. -/
def environmentAllowed (q : Query) : Eval Value := flagRule [undeclared q, declared q]

/-- `task_scope.deny_reason`, `task_scope.rego:24–31`. -/
def denyReason (q : Query) : Eval Value := rule [
  body (Eval.naf (taskIsActive q)) (.value (.str "No active task_id bound to this request")),
  body (do Eval.check (taskIsActive q); Eval.naf (environmentAllowed q))
    (.value (.str "Environment not in agent's declared allowed environments"))]

/-- The check of the task is `true` or undefined. -/
theorem taskIsActive_flag (q : Query) : taskIsActive q = .flag (taskIsActive q).holds :=
  Eval.flagRule_flag ⟨(q.safe_ref _).bind fun _ ↦ (safe_count _).bind fun _ ↦
    Eval.safe_guard _, trivial⟩

private theorem environmentAllowed_safe (q : Query) :
    Eval.AllSafe [undeclared q, declared q] :=
  ⟨(q.safe_ref _).naf,
    (q.safe_ref _).bind fun _ ↦ (q.safe_ref _).bind fun _ ↦ Eval.safe_guard _, trivial⟩

/-- The check of the environment is `true` or undefined. -/
theorem environmentAllowed_flag (q : Query) :
    environmentAllowed q = .flag (environmentAllowed q).holds :=
  Eval.flagRule_flag (environmentAllowed_safe q)

/-- An environment is allowed where none are declared or it is one of them. -/
theorem holds_environmentAllowed (q : Query) :
    (environmentAllowed q).holds = ((undeclared q).succeeds || (declared q).succeeds) := by
  rw [environmentAllowed, Eval.holds_flagRule (environmentAllowed_safe q)]
  simp

/-- The task is tested first, then the environment. -/
theorem denyReason_eq (q : Query) :
    denyReason q =
      if (taskIsActive q).holds then
        if (environmentAllowed q).holds then .undefined
        else .value (.str "Environment not in agent's declared allowed environments")
      else .value (.str "No active task_id bound to this request") := by
  rw [denyReason, taskIsActive_flag q, environmentAllowed_flag q]
  cases (taskIsActive q).holds <;> cases (environmentAllowed q).holds <;> rfl

end TaskScope

/-! ### Rate limit -/

namespace RateLimit

/-- `max_actions_per_minute`, `rate_limit.rego:13–17`. -/
def maxActionsPerMinute (q : Query) : Eval Value := defaultRule (.int 30) [
  body (Eval.check (q.ref ["context", "max_actions_per_minute"]))
    (q.ref ["context", "max_actions_per_minute"])]

/-- No action count was injected. -/
def uncounted (q : Query) : Eval Unit :=
  Eval.naf (q.ref ["context", "current_action_count_per_minute"])

/-- The injected count is below the limit. -/
def belowLimit (q : Query) : Eval Unit := do
  Eval.guard (lt (← q.ref ["context", "current_action_count_per_minute"])
    (← maxActionsPerMinute q))

/-- `within_rate_limit`, `rate_limit.rego:19–25`. -/
def withinRateLimit (q : Query) : Eval Value := flagRule [uncounted q, belowLimit q]

/-- `rate_limit.deny_reason`, `rate_limit.rego:27`. -/
def denyReason (q : Query) : Eval Value := rule [
  body (Eval.naf (withinRateLimit q))
    (.value (.str "Agent has exceeded its declared action rate limit"))]

private theorem withinRateLimit_safe (q : Query) :
    Eval.AllSafe [uncounted q, belowLimit q] :=
  ⟨(q.safe_ref _).naf,
    (q.safe_ref _).bind fun _ ↦ (Eval.safe_defaultRule_singleton
      ((q.safe_ref _).check.bind fun _ ↦ q.safe_ref _)).bind fun _ ↦ Eval.safe_guard _,
    trivial⟩

/-- The check of the rate is `true` or undefined. -/
theorem withinRateLimit_flag (q : Query) :
    withinRateLimit q = .flag (withinRateLimit q).holds :=
  Eval.flagRule_flag (withinRateLimit_safe q)

/-- A request is within the limit without a count or with a count below the limit. -/
theorem holds_withinRateLimit (q : Query) :
    (withinRateLimit q).holds = ((uncounted q).succeeds || (belowLimit q).succeeds) := by
  rw [withinRateLimit, Eval.holds_flagRule (withinRateLimit_safe q)]
  simp

/-- The reason applies past the limit. -/
theorem denyReason_eq (q : Query) :
    denyReason q =
      if (withinRateLimit q).holds then .undefined
      else .value (.str "Agent has exceeded its declared action rate limit") := by
  rw [denyReason, withinRateLimit_flag q]
  cases (withinRateLimit q).holds <;> rfl

end RateLimit

/-! ### Approval gate -/

namespace DestructiveGate

/-- `destructive_actions`, `destructive_gate.rego:10`. -/
def destructiveActions : List String := [
  "s3:DeleteObject", "s3:DeleteBucket", "ec2:TerminateInstances", "iam:DeleteRole",
  "iam:DeleteUser", "iam:DetachRolePolicy"]

/-- `iam_write_actions`, `destructive_gate.rego:20`. -/
def iamWriteActions : List String := ["iam:CreateUser", "iam:AttachRolePolicy"]

/-- `input.action in destructive_actions`. -/
def isDestructive (q : Query) : Eval Unit := do
  Eval.guard (mem destructiveActions (← q.ref ["action"]))

/-- `input.action in iam_write_actions`. -/
def isIamWrite (q : Query) : Eval Unit := do
  Eval.guard (mem iamWriteActions (← q.ref ["action"]))

/-- `input.agent_type == "ProvisionerAgent"`. -/
def isProvisioner (q : Query) : Eval Unit :=
  Eval.equals (q.ref ["agent_type"]) (.value (.str "ProvisionerAgent"))

/-- `not input.context.pre_approved`. -/
def notPreApproved (q : Query) : Eval Unit := Eval.naf (q.ref ["context", "pre_approved"])

/-- `requires_approval`, `destructive_gate.rego:25–39`. -/
def requiresApproval (q : Query) : Eval Value := flagRule [
  do isDestructive q; notPreApproved q,
  do isIamWrite q; notPreApproved q,
  do isProvisioner q; notPreApproved q]

/-- `approval_reason`, `destructive_gate.rego:41–54`. -/
def approvalReason (q : Query) : Eval Value := rule [
  body (do isDestructive q; notPreApproved q)
    (.value (.str "Destructive action requires human approval before execution")),
  body (do isIamWrite q; notPreApproved q)
    (.value (.str "IAM write action requires human approval")),
  body (do isProvisioner q; notPreApproved q)
    (.value (.str "ProvisionerAgent actions always require human approval"))]

private theorem isDestructive_safe (q : Query) : (isDestructive q).Safe :=
  (q.safe_ref _).bind fun _ ↦ Eval.safe_guard _

private theorem isIamWrite_safe (q : Query) : (isIamWrite q).Safe :=
  (q.safe_ref _).bind fun _ ↦ Eval.safe_guard _

private theorem isProvisioner_safe (q : Query) : (isProvisioner q).Safe :=
  (q.safe_ref _).equals (Eval.safe_value _)

private theorem notPreApproved_safe (q : Query) : (notPreApproved q).Safe := (q.safe_ref _).naf

/-- The gate is closed for a gated request that is not marked as approved. -/
theorem holds_requiresApproval (q : Query) :
    (requiresApproval q).holds =
      (((isDestructive q).succeeds || (isIamWrite q).succeeds || (isProvisioner q).succeeds) &&
        (notPreApproved q).succeeds) := by
  rw [requiresApproval, (isDestructive_safe q).eq_guard, (isIamWrite_safe q).eq_guard,
    (isProvisioner_safe q).eq_guard, (notPreApproved_safe q).eq_guard]
  simp only [Eval.guard_bind_guard, Eval.succeeds_guard]
  show (flagRule ([_, _, _].map Eval.guard)).holds = _
  rw [Eval.flagRule_guards, Eval.holds_flag]
  cases (isDestructive q).succeeds <;> cases (isIamWrite q).succeeds <;>
    cases (isProvisioner q).succeeds <;> cases (notPreApproved q).succeeds <;> rfl

/-- The approval gate is `true` or undefined. -/
theorem requiresApproval_flag (q : Query) :
    requiresApproval q = .flag (requiresApproval q).holds :=
  Eval.flagRule_flag
    ⟨(isDestructive_safe q).bind fun _ ↦ notPreApproved_safe q,
      (isIamWrite_safe q).bind fun _ ↦ notPreApproved_safe q,
      (isProvisioner_safe q).bind fun _ ↦ notPreApproved_safe q, trivial⟩

/-- No action is in both action sets. -/
theorem not_isIamWrite_of_isDestructive (q : Query) (h : (isDestructive q).succeeds = true) :
    (isIamWrite q).succeeds = false := by
  rw [isDestructive] at h
  rw [isIamWrite]
  cases ha : q.ref ["action"] with
  | undefined => rfl
  | value a =>
    rw [ha, Eval.bind_value, Eval.succeeds_guard] at h
    rw [Eval.bind_value, Eval.succeeds_guard]
    cases a with
    | str s =>
      simp only [mem, destructiveActions, List.mem_cons, List.not_mem_nil, or_false,
        decide_eq_true_eq] at h
      rcases h with rfl | rfl | rfl | rfl | rfl | rfl <;> rfl
    | _ => rfl
  | error e => exact absurd ha (q.safe_ref _ e)

/-- Two of the three categories overlap: a provisioner doing a gated action. -/
def overlap (q : Query) : Bool :=
  (isProvisioner q).succeeds && ((isDestructive q).succeeds || (isIamWrite q).succeeds) &&
    (notPreApproved q).succeeds

/-- The sentences of the approval reason. -/
def approvalReasons : List String := [
  "Destructive action requires human approval before execution",
  "IAM write action requires human approval",
  "ProvisionerAgent actions always require human approval"]

/-- The approval reason is undefined where no approval is required, a conflict where two
categories overlap, and one sentence elsewhere. -/
theorem approvalReason_cases (q : Query) :
    ((requiresApproval q).holds = false ∧ overlap q = false ∧
        approvalReason q = .undefined) ∨
    ((requiresApproval q).holds = true ∧ overlap q = false ∧
        ∃ s ∈ approvalReasons, approvalReason q = .value (.str s)) ∨
    ((requiresApproval q).holds = true ∧ overlap q = true ∧
        approvalReason q = .error .conflict) := by
  have hx := not_isIamWrite_of_isDestructive q
  rw [holds_requiresApproval, overlap, approvalReason, (isDestructive_safe q).eq_guard,
    (isIamWrite_safe q).eq_guard, (isProvisioner_safe q).eq_guard,
    (notPreApproved_safe q).eq_guard]
  simp only [Eval.guard_bind_guard, Eval.succeeds_guard, Eval.body_guard]
  revert hx
  cases (notPreApproved q).succeeds <;> cases (isProvisioner q).succeeds <;>
    cases (isDestructive q).succeeds <;> cases (isIamWrite q).succeeds <;>
    simp [rule, outputs, Except.map, approvalReasons]

end DestructiveGate

end NhiSentinel.Policy
