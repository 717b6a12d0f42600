import NhiSentinel.Base.Value

/-!
# Requests and decisions of the enforcement point

The records of `pep/models.py`. Validation follows the default (lax) mode of the
validation library: a text field takes strings only, an enumeration takes the value of
a member, a boolean also takes the numbers 0 and 1 and the usual words, and members that
the record does not name are ignored.
-/

namespace NhiSentinel.Pep
open NhiSentinel.Base

/-- `Decision`, `pep/models.py:9`. -/
inductive Decision where
  | allow
  | deny
  | requireApproval
  deriving DecidableEq

namespace Decision

/-- The value of the enumeration member. -/
def text : Decision → String
  | allow => "ALLOW"
  | deny => "DENY"
  | requireApproval => "REQUIRE_APPROVAL"

/-- The member with the given value. -/
def ofText? : String → Option Decision
  | "ALLOW" => some allow
  | "DENY" => some deny
  | "REQUIRE_APPROVAL" => some requireApproval
  | _ => none

end Decision

/-- `ActionRequest`, `pep/models.py:15`: what is sent to the policy engine for a tool call. -/
structure ActionRequest where
  agentId : String
  agentType : String
  tokenClaims : List (String × Value)
  action : String
  resourceArn : String
  taskId : String
  environment : String
  sourceIp : String
  resourceTags : List (String × String)
  context : List (String × Value)

/-- `request.model_dump()`. -/
def ActionRequest.dump (r : ActionRequest) : Value := .obj [
  ("agent_id", .str r.agentId),
  ("agent_type", .str r.agentType),
  ("token_claims", .obj r.tokenClaims),
  ("action", .str r.action),
  ("resource_arn", .str r.resourceArn),
  ("task_id", .str r.taskId),
  ("environment", .str r.environment),
  ("source_ip", .str r.sourceIp),
  ("resource_tags", .obj (r.resourceTags.map fun kv ↦ (kv.1, .str kv.2))),
  ("context", .obj r.context)]

namespace ActionRequest

variable (r : ActionRequest)

/-- A request is dumped with its action. -/
@[simp] theorem dump_action : r.dump.get? "action" = some (.str r.action) := rfl

/-- A request is dumped with its claims. -/
@[simp] theorem dump_tokenClaims : r.dump.get? "token_claims" = some (.obj r.tokenClaims) := rfl

/-- A request is dumped with its context. -/
@[simp] theorem dump_context : r.dump.get? "context" = some (.obj r.context) := rfl

end ActionRequest

/-- `ConditionResult`, `pep/models.py:30`. -/
structure ConditionResult where
  name : String
  result : Bool
  detail : Option String
  deriving DecidableEq

/-- `PolicyDecision`, `pep/models.py:36`. -/
structure PolicyDecision where
  effect : Decision
  reason : String
  policyRef : String
  policyVersion : String
  evaluatedAt : String
  conditionsEvaluated : List ConditionResult
  deriving DecidableEq

/-! ### Validation -/

/-- A text field. -/
def validateStr : Value → Option String
  | .str s => some s
  | _ => none

/-- An optional text field; null and absence are the same. -/
def validateStrOrNone : Option Value → Option (Option String)
  | none | some .null => some none
  | some v => (validateStr v).map some

/-- A boolean field. -/
def validateBool : Value → Option Bool
  | .bool b => some b
  | .num n => if n = .ofInt 0 then some false else if n = .ofInt 1 then some true else none
  | .str s =>
    let word := String.ofList (s.toList.map Char.toLower)
    if word ∈ ["0", "off", "f", "false", "n", "no"] then some false
    else if word ∈ ["1", "on", "t", "true", "y", "yes"] then some true
    else none
  | _ => none

/-- `ConditionResult.model_validate`. -/
def ConditionResult.validate? (v : Value) : Option ConditionResult := do
  let name ← validateStr (← v.get? "name")
  let result ← validateBool (← v.get? "result")
  let detail ← validateStrOrNone (v.get? "detail")
  return { name, result, detail }

/-- The list field `conditions_evaluated`, empty by default. -/
def validateConditions : Option Value → Option (List ConditionResult)
  | none => some []
  | some (.arr vs) => vs.mapM ConditionResult.validate?
  | some _ => none

/-- `PolicyDecision.model_validate`. -/
def PolicyDecision.validate? (v : Value) : Option PolicyDecision := do
  let effect ← Decision.ofText? (← validateStr (← v.get? "effect"))
  let reason ← validateStr (← v.get? "reason")
  let policyRef ← validateStr (← v.get? "policy_ref")
  let policyVersion ← validateStr (← v.get? "policy_version")
  let evaluatedAt ← validateStr (← v.get? "evaluated_at")
  let conditionsEvaluated ← validateConditions (v.get? "conditions_evaluated")
  return { effect, reason, policyRef, policyVersion, evaluatedAt, conditionsEvaluated }

/-- A decision is read from its value and from nothing else. -/
theorem Decision.ofText?_eq_some_iff {s : String} {d : Decision} :
    Decision.ofText? s = some d ↔ s = d.text := by
  constructor
  · intro h
    unfold Decision.ofText? at h
    split at h <;> cases h <;> rfl
  · rintro rfl
    cases d <;> rfl

/-- A validated decision has the effect of its document. -/
theorem PolicyDecision.validate?_effect {v : Value} {decision : PolicyDecision}
    (h : PolicyDecision.validate? v = some decision) :
    ∃ s, v.get? "effect" = some (.str s) ∧ Decision.ofText? s = some decision.effect := by
  simp only [PolicyDecision.validate?, Option.bind_eq_bind, Option.bind_eq_some_iff,
    Option.pure_def, Option.some.injEq] at h
  obtain ⟨w, hw, s, hs, effect, he, _, -, _, -, _, -, _, -, _, -, _, -, _, -, _, -, _, -, rfl⟩ := h
  have hv : w = .str s := by
    cases w <;> cases hs
    rfl
  exact ⟨s, by rw [hw, hv], he⟩

/-- A decision whose time is not text is refused, whatever its other fields are. -/
theorem PolicyDecision.validate?_of_evaluatedAt {v w : Value} (h : v.get? "evaluated_at" = some w)
    (hw : validateStr w = none) : PolicyDecision.validate? v = none := by
  simp only [PolicyDecision.validate?, h, Option.bind_eq_bind, Option.bind_some, hw,
    Option.bind_none]
  cases v.get? "effect" with
  | none => rfl
  | some e =>
    rw [Option.bind_some]
    cases validateStr e with
    | none => rfl
    | some t => cases Decision.ofText? t <;> simp

end NhiSentinel.Pep
