import NhiSentinel.Policy.Decision

/-!
# The first version of the policy, and both together

`policy/rego/authorization.rego` declares the package of `nhi/main.rego` once more, with
its own scope map, its own list of destructive actions and no check of environment or
rate. A server that loads the whole directory merges the rules of both files.
-/

namespace NhiSentinel.Policy.Authorization
open NhiSentinel.Base NhiSentinel.Rego NhiSentinel.Pep

/-- `action_scope_map`, `authorization.rego:64`. -/
def actionScopeMap : List (String × String) := [
  ("s3:ListBuckets", "cloud:s3:list"),
  ("s3:GetObject", "cloud:s3:read"),
  ("s3:PutObject", "cloud:s3:write"),
  ("s3:DeleteObject", "cloud:s3:delete"),
  ("s3:DeleteBucket", "cloud:s3:delete"),
  ("ec2:DescribeInstances", "cloud:ec2:describe"),
  ("ec2:DescribeSecurityGroups", "cloud:ec2:describe"),
  ("ec2:TerminateInstances", "cloud:ec2:terminate"),
  ("iam:ListRoles", "cloud:iam:read"),
  ("iam:CreateRole", "cloud:iam:create-role"),
  ("iam:CreateUser", "cloud:iam:write"),
  ("securityhub:GetFindings", "cloud:securityhub:read")]

/-- `destructive_actions`, `authorization.rego:80`. -/
def destructiveActions : List String := [
  "s3:DeleteObject", "s3:DeleteBucket", "ec2:TerminateInstances", "iam:DeleteRole",
  "iam:DeleteUser"]

/-- `valid_token`, `authorization.rego:92–100`: both bodies as in `main.rego`. -/
def validToken (q : Query) : Eval Value :=
  flagRule [Main.validTokenIntrospected q, Main.validTokenFallback q]

/-- `action_scope_map[input.action]`. -/
def required (q : Query) : Eval Value := do lookup actionScopeMap (← q.ref ["action"])

/-- The required scope occurs in the `scope` string; `authorization.rego:102`. -/
def inScopeString (q : Query) : Eval Unit := do
  let required ← required q
  let scopes ← q.ref ["token_claims", "scope"]
  Eval.check (contains scopes required)

/-- The required scope is an element of `scopes`; `authorization.rego:109`. -/
def inScopeArray (q : Query) : Eval Unit := do
  let required ← required q
  Eval.guard (required ∈ (← q.ref ["token_claims", "scopes"]).elems)

/-- `action_in_scope`, `authorization.rego:102–112`. -/
def actionInScope (q : Query) : Eval Value := flagRule [inScopeString q, inScopeArray q]

/-- `within_time_window`, `authorization.rego:114–124`: no agent is exempt. -/
def withinTimeWindow (q : Query) : Eval Value :=
  flagRule [TimeWindow.undeclared q, TimeWindow.inside q]

/-- `task_is_active`, `authorization.rego:126`. -/
def taskIsActive (q : Query) : Eval Value := flagRule [
  do Eval.guard (lt (.int 0) (← count (← q.ref ["task_id"])))]

/-- `input.action in destructive_actions`. -/
def isDestructive (q : Query) : Eval Unit := do
  Eval.guard (mem destructiveActions (← q.ref ["action"]))

/-- `is_destructive_without_approval`, `authorization.rego:131`. -/
def isDestructiveWithoutApproval (q : Query) : Eval Value := flagRule [
  do isDestructive q; DestructiveGate.notPreApproved q]

/-- The four conditions shared by both bodies of `effect`. -/
def allChecks (q : Query) : Eval Unit := do
  Eval.check (validToken q)
  Eval.check (actionInScope q)
  Eval.check (withinTimeWindow q)
  Eval.check (taskIsActive q)

/-- The bodies of `effect`, `authorization.rego:12–26`. -/
def effectBodies (q : Query) : List (Eval Value) := [
  body (do allChecks q; Eval.naf (isDestructiveWithoutApproval q)) (.value (.str "ALLOW")),
  body (do allChecks q; Eval.check (isDestructiveWithoutApproval q))
    (.value (.str "REQUIRE_APPROVAL"))]

/-- `effect`, `authorization.rego:9–26`. -/
def effect (q : Query) : Eval Value := defaultRule (.str "DENY") (effectBodies q)

/-- The bodies of `reason`, `authorization.rego:28–58`. -/
def reasonBodies (q : Query) : List (Eval Value) := [
  body (Eval.naf (validToken q))
    (.value (.str "Token is invalid or agent is not in ACTIVE state")),
  body
    (do
      Eval.check (validToken q)
      Eval.naf (actionInScope q))
    (.value (.str "Action scope not present in token")),
  body
    (do
      Eval.check (validToken q)
      Eval.check (actionInScope q)
      Eval.naf (withinTimeWindow q))
    (.value (.str "Action outside agent declared time window")),
  body
    (do
      Eval.check (validToken q)
      Eval.check (actionInScope q)
      Eval.check (withinTimeWindow q)
      Eval.naf (taskIsActive q))
    (.value (.str "No active task bound to this agent")),
  body
    (do
      Eval.check (validToken q)
      Eval.check (actionInScope q)
      Eval.check (withinTimeWindow q)
      Eval.check (taskIsActive q)
      Eval.check (isDestructiveWithoutApproval q))
    (.value (.str "Destructive action requires human approval"))]

/-- `reason`, `authorization.rego:10–58`. -/
def reason (q : Query) : Eval Value :=
  defaultRule (.str "No policy explicitly allows this action") (reasonBodies q)

/-- `response`, `authorization.rego:140`. -/
def response (q : Query) : Eval Value := do
  let effect ← effect q
  let reason ← reason q
  let conditions := .arr [
    ← Main.condition "valid_token" (validToken q),
    ← Main.condition "action_in_scope" (actionInScope q),
    ← Main.condition "within_time_window" (withinTimeWindow q),
    ← Main.condition "task_is_active" (taskIsActive q)]
  return .obj [
    ("effect", effect),
    ("reason", reason),
    ("policy_ref", .str "nhi.agent.authorization"),
    ("policy_version", .str "1.0.0"),
    ("evaluated_at", .int q.now),
    ("conditions_evaluated", conditions)]

/-! ### Verdicts -/

private theorem validToken_eq (q : Query) : validToken q = Main.validToken q := rfl

private theorem taskIsActive_eq (q : Query) : taskIsActive q = TaskScope.taskIsActive q := rfl

/-- The action has an entry in the scope map. -/
def registered (q : Query) : Bool := required q ≠ .undefined

/-- Every entry of the scope map is an entry of the second version's. -/
theorem lookup_of_registered {action scope : Value}
    (h : lookup actionScopeMap action = .value scope) :
    lookup ScopeCheck.actionScopeMap action = .value scope := by
  have hs : ∀ kv ∈ actionScopeMap, ScopeCheck.actionScopeMap.lookup kv.1 = some kv.2 := by decide
  cases action with
  | str s =>
    rw [lookup] at h ⊢
    cases hl : actionScopeMap.lookup s with
    | none =>
      rw [hl] at h
      cases h
    | some r =>
      obtain ⟨l₁, l₂, he, -⟩ := List.lookup_eq_some_iff.mp hl
      have hm : (s, r) ∈ actionScopeMap := by simp [he]
      have hr : ScopeCheck.actionScopeMap.lookup s = some r := hs _ hm
      rw [hr, ← hl]
      exact h
  | _ => cases h

private theorem actionInScope_allSafe (q : Query) :
    Eval.AllSafe [inScopeString q, inScopeArray q] := by
  have hr : (required q).Safe := (q.safe_ref _).bind fun _ ↦ safe_lookup _ _
  exact ⟨hr.bind fun _ ↦ (q.safe_ref _).bind fun _ ↦ (safe_contains _ _).check,
    hr.bind fun _ ↦ (q.safe_ref _).bind fun _ ↦ Eval.safe_guard _, trivial⟩

/-- The scope check is the second version's on the actions of the smaller map. -/
theorem holds_actionInScope (q : Query) :
    (actionInScope q).holds = (registered q && (ScopeCheck.actionInScope q).holds) := by
  rw [actionInScope, Eval.holds_flagRule (actionInScope_allSafe q), ScopeCheck.holds_actionInScope,
    registered, inScopeString, inScopeArray, ScopeCheck.inScopeString, ScopeCheck.inScopeArray]
  cases ha : q.ref ["action"] with
  | undefined => simp [required, ha, Eval.succeeds]
  | value a =>
    cases hl : lookup actionScopeMap a with
    | undefined => simp [required, ha, hl, Eval.succeeds]
    | value r =>
      have hr := lookup_of_registered hl
      simp [required, ScopeCheck.requiredScope, ha, hl, hr]
    | error e => exact absurd hl (safe_lookup _ a e)
  | error e => exact absurd ha (q.safe_ref _ e)

/-- The check of the scope is `true` or undefined. -/
theorem actionInScope_flag (q : Query) : actionInScope q = .flag (actionInScope q).holds :=
  Eval.flagRule_flag (actionInScope_allSafe q)

private theorem withinTimeWindow_allSafe (q : Query) :
    Eval.AllSafe [TimeWindow.undeclared q, TimeWindow.inside q] :=
  ⟨(q.safe_ref _).naf,
    (q.safe_ref _).bind fun _ ↦ (Eval.safe_ofOption _).bind fun _ ↦
      (Eval.safe_guard _).bind fun _ ↦ (Eval.safe_ofOption _).bind fun _ ↦
        Eval.safe_guard _, trivial⟩

private theorem withinTimeWindow_flag (q : Query) :
    withinTimeWindow q = .flag (withinTimeWindow q).holds :=
  Eval.flagRule_flag (withinTimeWindow_allSafe q)

/-- The second version's window check adds the exemption. -/
theorem holds_withinWindow_eq (q : Query) :
    (TimeWindow.withinWindow q).holds =
      ((withinTimeWindow q).holds || (TimeWindow.exempt q).succeeds) := by
  rw [TimeWindow.holds_withinWindow, withinTimeWindow,
    Eval.holds_flagRule (withinTimeWindow_allSafe q), List.any_cons, List.any_cons, List.any_nil,
    Bool.or_false]
  apply Bool.or_right_comm

/-- The action is on the list of destructive actions. -/
def destructive (q : Query) : Bool := (isDestructive q).succeeds

private theorem isDestructive_eq_guard (q : Query) : isDestructive q = .guard (destructive q) :=
  ((q.safe_ref _).bind fun _ ↦ Eval.safe_guard _).eq_guard

private theorem notPreApproved_eq_guard (q : Query) :
    DestructiveGate.notPreApproved q = .guard (DestructiveGate.notPreApproved q).succeeds :=
  ((q.safe_ref _).naf).eq_guard

/-- The gate is closed for a destructive action that is not marked as approved. -/
theorem isDestructiveWithoutApproval_eq (q : Query) :
    isDestructiveWithoutApproval q =
      .flag (destructive q && (DestructiveGate.notPreApproved q).succeeds) := by
  rw [isDestructiveWithoutApproval, isDestructive_eq_guard, notPreApproved_eq_guard,
    Eval.guard_bind_guard, Eval.succeeds_guard]
  show flagRule ([_].map Eval.guard) = _
  rw [Eval.flagRule_guards]
  simp

/-- A destructive action is one of the second version's. -/
theorem isDestructive_of_destructive (q : Query) (h : destructive q = true) :
    (DestructiveGate.isDestructive q).succeeds = true := by
  have hs : ∀ s ∈ destructiveActions, s ∈ DestructiveGate.destructiveActions := by decide
  rw [destructive, isDestructive] at h
  rw [DestructiveGate.isDestructive]
  cases ha : q.ref ["action"] with
  | undefined =>
    rw [ha] at h
    cases h
  | value a =>
    rw [ha, Eval.bind_value, Eval.succeeds_guard] at h
    rw [Eval.bind_value, Eval.succeeds_guard]
    cases a with
    | str s =>
      rw [mem, decide_eq_true_eq] at h ⊢
      exact hs s h
    | _ => cases h
  | error e => exact absurd ha (q.safe_ref _ e)

/-- All four checks hold. -/
def passes (q : Query) : Bool :=
  (Main.validToken q).holds && (actionInScope q).holds && (withinTimeWindow q).holds &&
    (TaskScope.taskIsActive q).holds

/-- All the checks together are a condition. -/
theorem allChecks_eq (q : Query) : allChecks q = .guard (passes q) := by
  rw [allChecks, passes, validToken_eq, taskIsActive_eq, Main.validToken_flag q,
    actionInScope_flag q, withinTimeWindow_flag q, TaskScope.taskIsActive_flag q]
  simp [Bool.and_assoc]

/-- At most one body of the effect applies, by the checks and the gate. -/
theorem effectBodies_eq (q : Query) :
    effectBodies q =
      if passes q then
        if (isDestructiveWithoutApproval q).holds then
          [.undefined, .value (.str "REQUIRE_APPROVAL")]
        else [.value (.str "ALLOW"), .undefined]
      else [.undefined, .undefined] := by
  rw [effectBodies, allChecks_eq, isDestructiveWithoutApproval_eq]
  cases passes q <;> cases destructive q && (DestructiveGate.notPreApproved q).succeeds <;> rfl

/-! ### Both versions in one package -/

/-- The package of both files. -/
def package : String := "nhi.agent.authorization"

/-- The bodies of `valid_token`, which are those of `main.rego`. -/
def validTokenBodies (q : Query) : List (Eval Value) :=
  [Main.validTokenIntrospected q, Main.validTokenFallback q].map (body · (.value (.bool true)))

/-- `authorization.rego`. -/
def authorizationRego : RegoModule Query where
  package := package
  defaults := [("effect", .str "DENY"), ("reason", .str "No policy explicitly allows this action")]
  rules := [
    ("effect", effectBodies),
    ("reason", reasonBodies),
    ("valid_token", validTokenBodies),
    ("action_in_scope", fun q ↦ [actionInScope q]),
    ("within_time_window", fun q ↦ [withinTimeWindow q]),
    ("task_is_active", fun q ↦ [taskIsActive q]),
    ("is_destructive_without_approval", fun q ↦ [isDestructiveWithoutApproval q]),
    ("response", fun q ↦ [response q])]

/-- `nhi/main.rego`. -/
def mainRego : RegoModule Query where
  package := package
  defaults := [("effect", .str "DENY"), ("reason", .str "Action denied by policy")]
  rules := [
    ("effect", Main.effectBodies),
    ("reason", Main.reasonBodies),
    ("valid_token", validTokenBodies),
    ("response", fun q ↦ [Main.response q])]

/-- Each file compiles by itself, and its documents are its rules. -/
theorem compiles_alone :
    RegoModule.compiles [authorizationRego] = true ∧ RegoModule.compiles [mainRego] = true ∧
      ∀ q, RegoModule.document [authorizationRego] package "effect" q = effect q ∧
        RegoModule.document [mainRego] package "effect" q = Main.effect q ∧
        RegoModule.document [authorizationRego] package "reason" q = reason q ∧
        RegoModule.document [mainRego] package "reason" q = Main.reason q ∧
        RegoModule.document [authorizationRego] package "response" q = response q ∧
        RegoModule.document [mainRego] package "response" q = Main.response q :=
  ⟨by decide, by decide, fun _ ↦
    ⟨rfl, rfl, rfl, rfl, Eval.rule_singleton _, Eval.rule_singleton _⟩⟩

/-- What the files of the directory derive: the same effect by themselves, and no conflict
together. -/
structure Agree (q : Query) : Prop where
  same : RegoModule.document [authorizationRego] package "effect" q =
    RegoModule.document [mainRego] package "effect" q
  conflictFree : RegoModule.ConflictFree [authorizationRego, mainRego] package q

/-- The files do not compile together, on whatever input: both give `effect` a default. -/
theorem not_agree (q : Query) : ¬ Agree q := by
  intro h
  have hn : RegoModule.compiles [authorizationRego, mainRego] = false :=
    RegoModule.not_compiles (.refl _) rfl List.mem_cons_self List.mem_cons_self
  exact Bool.false_ne_true (hn.symm.trans h.conflictFree.compiles)

/-! ### The effects -/

/-- `valid_token` of both files together. -/
def mergedValidToken (q : Query) : Eval Value :=
  RegoModule.document [authorizationRego, mainRego] package "valid_token" q

/-- Merging the token checks changes neither version's. -/
theorem mergedValidToken_eq (q : Query) : mergedValidToken q = Main.validToken q := by
  have hi : (Main.validTokenIntrospected q).Safe :=
    ((q.safe_ref _).equals (Eval.safe_value _)).bind fun _ ↦ (q.safe_ref _).equals (q.safe_ref _)
  have hf : (Main.validTokenFallback q).Safe :=
    (q.safe_ref _).bind fun _ ↦ (safe_count _).bind fun _ ↦
      (Eval.safe_guard _).bind fun _ ↦ (q.safe_ref _).naf
  have hs : Eval.AllSafe [Main.validTokenIntrospected q, Main.validTokenFallback q,
      Main.validTokenIntrospected q, Main.validTokenFallback q] := ⟨hi, hf, hi, hf, trivial⟩
  have hm : mergedValidToken q = flagRule [Main.validTokenIntrospected q,
    Main.validTokenFallback q, Main.validTokenIntrospected q, Main.validTokenFallback q] := rfl
  rw [hm, Main.validToken_flag, Main.holds_validToken, Eval.flagRule_eq_flag hs]
  simp only [List.any_cons, List.any_nil, Bool.or_false]
  cases (Main.validTokenIntrospected q).succeeds <;> simp

/-- `effect` of both files together, were one of the defaults left out. -/
def mergedEffect (q : Query) : Eval Value :=
  RegoModule.document [authorizationRego, mainRego] package "effect" q

/-- Both versions derive one effect, and so neither the rule with the bodies of both nor the token
check that it rests on has a conflict. -/
structure EffectsAgree (q : Query) : Prop where
  same : effect q = Main.effect q
  effect : (mergedEffect q).Safe
  token : (mergedValidToken q).Safe

/-- A request that the second version gates and the first does not. -/
def gatedOnlySecond (q : Query) : Bool :=
  (DestructiveGate.requiresApproval q).holds && !destructive q

/-- Where the two versions agree: past the checks they share, a request of the first
version's map within its window passes the checks it lacks and is gated by both or none,
and any other request fails one of the checks it lacks. -/
def Congruent (q : Query) : Prop :=
  (Main.validToken q).holds = true → (TaskScope.taskIsActive q).holds = true →
  (ScopeCheck.actionInScope q).holds = true → (TimeWindow.withinWindow q).holds = true →
    if registered q && (withinTimeWindow q).holds then
      (TaskScope.environmentAllowed q).holds = true ∧ (RateLimit.withinRateLimit q).holds = true ∧
        gatedOnlySecond q = false
    else ((TaskScope.environmentAllowed q).holds && (RateLimit.withinRateLimit q).holds) = false

/-- The effect is a function of the four checks and of the gate. -/
theorem effect_eq (q : Query) :
    effect q = .value (.str
      (if passes q then
        if (isDestructiveWithoutApproval q).holds then "REQUIRE_APPROVAL" else "ALLOW"
      else "DENY")) := by
  rw [effect, effectBodies_eq]
  cases passes q <;> cases (isDestructiveWithoutApproval q).holds <;> rfl

/-- The versions agree when their checks agree and, past the checks, their gates. -/
theorem effect_eq_main_iff (q : Query) :
    effect q = Main.effect q ↔ passes q = Main.passes q ∧ (passes q = true →
      (isDestructiveWithoutApproval q).holds = (DestructiveGate.requiresApproval q).holds) := by
  rw [effect_eq, Main.effect_eq]
  cases passes q <;> cases Main.passes q <;> cases (isDestructiveWithoutApproval q).holds <;>
    cases (DestructiveGate.requiresApproval q).holds <;> simp

/-- Equal effects do not conflict. -/
theorem mergedEffect_safe {q : Query} (h : effect q = Main.effect q) :
    (mergedEffect q).Safe := by
  obtain ⟨hp, hg⟩ := (effect_eq_main_iff q).mp h
  have hm : mergedEffect q =
      defaultRule (.str "DENY") (effectBodies q ++ (Main.effectBodies q ++ [])) := rfl
  rw [hm, List.append_nil, effectBodies_eq, Main.effectBodies_eq, ← hp]
  cases hq : passes q with
  | false => exact Eval.safe_value _
  | true =>
    rw [← hg hq]
    cases (isDestructiveWithoutApproval q).holds <;> exact Eval.safe_value _

/-- The gates differ exactly on what only the second version gates. -/
theorem gates_eq_iff (q : Query) :
    (isDestructiveWithoutApproval q).holds = (DestructiveGate.requiresApproval q).holds ↔
      gatedOnlySecond q = false := by
  have hd := isDestructive_of_destructive q
  rw [isDestructiveWithoutApproval_eq, Eval.holds_flag, gatedOnlySecond,
    DestructiveGate.holds_requiresApproval]
  cases h : destructive q with
  | false => simp
  | true => simp [hd h]

/-- The effects of the two versions agree exactly on the congruent requests. -/
theorem effectsAgree_iff (q : Query) : EffectsAgree q ↔ Congruent q := by
  have hiff : EffectsAgree q ↔ effect q = Main.effect q := by
    refine ⟨EffectsAgree.same, fun h ↦ ⟨h, mergedEffect_safe h, ?_⟩⟩
    rw [mergedValidToken_eq, Main.validToken_flag]
    cases (Main.validToken q).holds
    · exact Eval.safe_undefined
    · exact Eval.safe_value _
  rw [hiff, effect_eq_main_iff, gates_eq_iff, Congruent, passes, Main.passes, holds_actionInScope,
    holds_withinWindow_eq]
  cases (Main.validToken q).holds <;> cases (TaskScope.taskIsActive q).holds <;>
    cases (ScopeCheck.actionInScope q).holds <;> simp
  cases (withinTimeWindow q).holds <;> cases registered q <;>
    cases (TimeWindow.exempt q).succeeds <;> cases (TaskScope.environmentAllowed q).holds <;>
    cases (RateLimit.withinRateLimit q).holds <;> simp

/-- A provisioner's request for a role, with the scope for it and not yet approved. -/
def createRoleRequest : ActionRequest where
  agentId := "agent-provisioner-001"
  agentType := "ProvisionerAgent"
  tokenClaims := [("active", .bool true), ("agent_id", .str "agent-provisioner-001"),
    ("scope", .str "cloud:iam:create-role")]
  action := "iam:CreateRole"
  resourceArn := "arn:aws:iam::123456789012:role/nhi-sentinel"
  taskId := "task-001"
  environment := "staging"
  sourceIp := "10.0.1.10"
  resourceTags := []
  context := []

/-- The first version allows the request, the second requires approval, the rule of both would
conflict, and the files do not even compile together. -/
theorem createRole_conflict :
    effect ⟨createRoleRequest.dump, 0⟩ = .value (.str "ALLOW") ∧
      Main.effect ⟨createRoleRequest.dump, 0⟩ = .value (.str "REQUIRE_APPROVAL") ∧
      mergedEffect ⟨createRoleRequest.dump, 0⟩ = .error .conflict ∧
      RegoModule.compiles [authorizationRego, mainRego] = false ∧ ¬ ∀ q, Agree q := by
  have ha : effect ⟨createRoleRequest.dump, 0⟩ = .value (.str "ALLOW") := by decide
  have hm : mergedEffect ⟨createRoleRequest.dump, 0⟩ = .error .conflict := by decide
  have hr : Main.effect ⟨createRoleRequest.dump, 0⟩ = .value (.str "REQUIRE_APPROVAL") := by
    decide
  have hc : RegoModule.compiles [authorizationRego, mainRego] = false := by decide
  exact ⟨ha, hr, hm, hc, fun h ↦
    Bool.false_ne_true (hc.symm.trans (h ⟨createRoleRequest.dump, 0⟩).conflictFree.compiles)⟩

/-! ### The response of the first version -/

/-- The reason is the first failing check's, or the gate's; where the request is allowed it is
the default. -/
theorem reason_eq (q : Query) : reason q = .value (.str (
    if (validToken q).holds then
      if (actionInScope q).holds then
        if (withinTimeWindow q).holds then
          if (taskIsActive q).holds then
            if (isDestructiveWithoutApproval q).holds then
              "Destructive action requires human approval"
            else "No policy explicitly allows this action"
          else "No active task bound to this agent"
        else "Action outside agent declared time window"
      else "Action scope not present in token"
    else "Token is invalid or agent is not in ACTIVE state")) := by
  rw [reason, reasonBodies, validToken_eq, taskIsActive_eq, Main.validToken_flag q,
    actionInScope_flag q, withinTimeWindow_flag q, TaskScope.taskIsActive_flag q,
    isDestructiveWithoutApproval_eq]
  cases (Main.validToken q).holds <;> cases (actionInScope q).holds <;>
    cases (withinTimeWindow q).holds <;> cases (TaskScope.taskIsActive q).holds <;>
    cases destructive q && (DestructiveGate.notPreApproved q).succeeds <;> rfl

/-- The response exists exactly where the four checks hold, and so never with a denial; the
reason that it gives for an allowed request is that no policy allows it. -/
theorem authorizationResponse_eq (q : Query) : response q =
    if passes q then
      .value (.obj [
        ("effect", .str
          (if (isDestructiveWithoutApproval q).holds then "REQUIRE_APPROVAL" else "ALLOW")),
        ("reason", .str
          (if (isDestructiveWithoutApproval q).holds then
            "Destructive action requires human approval"
          else "No policy explicitly allows this action")),
        ("policy_ref", .str "nhi.agent.authorization"),
        ("policy_version", .str "1.0.0"),
        ("evaluated_at", .int q.now),
        ("conditions_evaluated", .arr (
          ["valid_token", "action_in_scope", "within_time_window", "task_is_active"].map
            fun name ↦ .obj [("name", .str name), ("result", .bool true)]))])
    else .undefined := by
  rw [response, effect_eq, reason_eq, passes, validToken_eq, taskIsActive_eq,
    Main.validToken_flag q, actionInScope_flag q, withinTimeWindow_flag q,
    TaskScope.taskIsActive_flag q]
  cases (Main.validToken q).holds <;> cases (actionInScope q).holds <;>
    cases (withinTimeWindow q).holds <;> cases (TaskScope.taskIsActive q).holds <;>
    cases (isDestructiveWithoutApproval q).holds <;> rfl

end NhiSentinel.Policy.Authorization
