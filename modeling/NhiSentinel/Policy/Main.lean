import NhiSentinel.Policy.Modules

/-!
# The composed authorization policy

Package `nhi.agent.authorization` as `policy/rego/nhi/main.rego` defines it over its
imported modules: the effect, the token check with its fallback, the reason, and the
response document the enforcement point asks for.
-/

namespace NhiSentinel.Policy.Main
open NhiSentinel.Base NhiSentinel.Rego

/-- First body of `valid_token`: an introspected, active token of the calling agent;
`main.rego:43`. -/
def validTokenIntrospected (q : Query) : Eval Unit := do
  Eval.equals (q.ref ["token_claims", "active"]) (.value (.bool true))
  Eval.equals (q.ref ["token_claims", "agent_id"]) (q.ref ["agent_id"])

/-- Second body of `valid_token`: the development fallback; `main.rego:49`. -/
def validTokenFallback (q : Query) : Eval Unit := do
  Eval.guard (lt (.int 0) (← count (← q.ref ["token_claims"])))
  Eval.naf (q.ref ["token_claims", "active"])

/-- `valid_token`, `main.rego:43–52`. -/
def validToken (q : Query) : Eval Value :=
  flagRule [validTokenIntrospected q, validTokenFallback q]

/-- The six conditions shared by both bodies of `effect`. -/
def allChecks (q : Query) : Eval Unit := do
  Eval.check (validToken q)
  Eval.check (ScopeCheck.actionInScope q)
  Eval.check (TimeWindow.withinWindow q)
  Eval.check (TaskScope.taskIsActive q)
  Eval.check (TaskScope.environmentAllowed q)
  Eval.check (RateLimit.withinRateLimit q)

/-- `effect`, `main.rego:17–37`. -/
def effect (q : Query) : Eval Value := defaultRule (.str "DENY") [
  body (do allChecks q; Eval.naf (DestructiveGate.requiresApproval q)) (.value (.str "ALLOW")),
  body (do allChecks q; Eval.check (DestructiveGate.requiresApproval q))
    (.value (.str "REQUIRE_APPROVAL"))]

/-- The bodies of `reason`, `main.rego:58–95`. -/
def reasonBodies (q : Query) : List (Eval Value) := [
  body (Eval.naf (validToken q))
    (.value (.str "Token is invalid or agent is not in ACTIVE state")),
  body
    (do
      Eval.check (validToken q)
      Eval.check (ScopeCheck.denyReason q))
    (ScopeCheck.denyReason q),
  body
    (do
      Eval.check (validToken q)
      Eval.check (ScopeCheck.actionInScope q)
      Eval.check (TimeWindow.denyReason q))
    (TimeWindow.denyReason q),
  body
    (do
      Eval.check (validToken q)
      Eval.check (ScopeCheck.actionInScope q)
      Eval.check (TimeWindow.withinWindow q)
      Eval.check (TaskScope.denyReason q))
    (TaskScope.denyReason q),
  body
    (do
      Eval.check (validToken q)
      Eval.check (ScopeCheck.actionInScope q)
      Eval.check (TimeWindow.withinWindow q)
      Eval.check (TaskScope.taskIsActive q)
      Eval.check (RateLimit.denyReason q))
    (RateLimit.denyReason q),
  body
    (do
      Eval.check (validToken q)
      Eval.check (ScopeCheck.actionInScope q)
      Eval.check (TimeWindow.withinWindow q)
      Eval.check (TaskScope.taskIsActive q)
      Eval.check (RateLimit.withinRateLimit q)
      Eval.check (DestructiveGate.approvalReason q))
    (DestructiveGate.approvalReason q)]

/-- `reason`, `main.rego:58–97`. -/
def reason (q : Query) : Eval Value :=
  defaultRule (.str "Action denied by policy") (reasonBodies q)

/-- One entry of `conditions_evaluated`: undefined where the condition is. -/
def condition (name : String) (result : Eval Value) : Eval Value := do
  return .obj [("name", .str name), ("result", ← result)]

/-- `response`, `main.rego:103`: an object or array with an undefined part is undefined. -/
def response (q : Query) : Eval Value := do
  let effect ← effect q
  let reason ← reason q
  let conditions := .arr [
    ← condition "valid_token" (validToken q),
    ← condition "action_in_scope" (ScopeCheck.actionInScope q),
    ← condition "within_time_window" (TimeWindow.withinWindow q),
    ← condition "task_is_active" (TaskScope.taskIsActive q),
    ← condition "within_rate_limit" (RateLimit.withinRateLimit q)]
  return .obj [
    ("effect", effect),
    ("reason", reason),
    ("policy_ref", .str "nhi.agent.authorization"),
    ("policy_version", .str "2.0.0"),
    ("evaluated_at", .int q.now),
    ("conditions_evaluated", conditions)]

end NhiSentinel.Policy.Main
