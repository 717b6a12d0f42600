import NhiSentinel.Pep.Models
import NhiSentinel.Policy.Main

/-!
# What the composed policy decides

The effect and the reason of `nhi/main.rego` as functions of the verdicts of its checks,
and from them: which claims a granted token can carry, when the reason is single-valued
and the first failing check's, and when the response exists.
-/

namespace NhiSentinel.Policy.Main
open NhiSentinel.Base NhiSentinel.Rego NhiSentinel.Pep

/-! ### Verdicts -/

private theorem validToken_safe (q : Query) :
    Eval.AllSafe [validTokenIntrospected q, validTokenFallback q] :=
  ⟨((q.safe_ref _).equals (Eval.safe_value _)).bind fun _ ↦ (q.safe_ref _).equals (q.safe_ref _),
    (q.safe_ref _).bind fun _ ↦ (safe_count _).bind fun _ ↦
      (Eval.safe_guard _).bind fun _ ↦ (q.safe_ref _).naf, trivial⟩

/-- The check of the token is `true` or undefined. -/
theorem validToken_flag (q : Query) : validToken q = .flag (validToken q).holds :=
  Eval.flagRule_flag (validToken_safe q)

/-- A token is valid by introspection or by the fallback. -/
theorem holds_validToken (q : Query) :
    (validToken q).holds =
      ((validTokenIntrospected q).succeeds || (validTokenFallback q).succeeds) := by
  rw [validToken, Eval.holds_flagRule (validToken_safe q)]
  simp

/-- All six checks hold. -/
def passes (q : Query) : Bool :=
  (validToken q).holds && (ScopeCheck.actionInScope q).holds &&
    (TimeWindow.withinWindow q).holds && (TaskScope.taskIsActive q).holds &&
    (TaskScope.environmentAllowed q).holds && (RateLimit.withinRateLimit q).holds

/-- The shared conditions succeed exactly where the six checks hold. -/
theorem allChecks_eq (q : Query) : allChecks q = .guard (passes q) := by
  rw [allChecks, passes, validToken_flag q, ScopeCheck.actionInScope_flag q,
    TimeWindow.withinWindow_flag q, TaskScope.taskIsActive_flag q,
    TaskScope.environmentAllowed_flag q, RateLimit.withinRateLimit_flag q]
  simp [Bool.and_assoc]

/-- The effect is a function of the six checks and of the approval gate. -/
theorem effect_eq (q : Query) :
    effect q = .value (.str
      (if passes q then
        if (DestructiveGate.requiresApproval q).holds then "REQUIRE_APPROVAL" else "ALLOW"
      else "DENY")) := by
  rw [effect, allChecks_eq, DestructiveGate.requiresApproval_flag q]
  cases passes q <;> cases (DestructiveGate.requiresApproval q).holds <;> rfl

/-- The effect is not DENY. -/
def Granted (q : Query) : Prop :=
  effect q = .value (.str "ALLOW") ∨ effect q = .value (.str "REQUIRE_APPROVAL")

/-- A request is granted exactly when the six checks hold. -/
theorem granted_iff (q : Query) : Granted q ↔ passes q = true := by
  rw [Granted, effect_eq]
  cases passes q <;> cases (DestructiveGate.requiresApproval q).holds <;> simp

/-- A request is denied exactly when a check fails. -/
theorem effect_eq_deny_iff (q : Query) :
    effect q = .value (.str "DENY") ↔ passes q = false := by
  rw [effect_eq]
  cases passes q <;> cases (DestructiveGate.requiresApproval q).holds <;> simp

/-! ### Bodies of the effect -/

/-- The bodies of `effect`, `main.rego:19–37`. -/
def effectBodies (q : Query) : List (Eval Value) := [
  body (do allChecks q; Eval.naf (DestructiveGate.requiresApproval q)) (.value (.str "ALLOW")),
  body (do allChecks q; Eval.check (DestructiveGate.requiresApproval q))
    (.value (.str "REQUIRE_APPROVAL"))]

/-- An effect that some body assigns. -/
def Derivable (q : Query) (effect : String) : Prop := .value (.str effect) ∈ effectBodies q

/-- At most one body of the effect applies, by the checks and the gate. -/
theorem effectBodies_eq (q : Query) :
    effectBodies q =
      if passes q then
        if (DestructiveGate.requiresApproval q).holds then
          [.undefined, .value (.str "REQUIRE_APPROVAL")]
        else [.value (.str "ALLOW"), .undefined]
      else [.undefined, .undefined] := by
  rw [effectBodies, allChecks_eq, DestructiveGate.requiresApproval_flag q]
  cases passes q <;> cases (DestructiveGate.requiresApproval q).holds <;> rfl

/-! ### Approval gate -/

/-- The requests that the approval gate is for. -/
def Gated (agentType action : String) : Prop :=
  action ∈ DestructiveGate.destructiveActions ∨ action ∈ DestructiveGate.iamWriteActions ∨
    agentType = "ProvisionerAgent"

/-- A gated request is in one of the three categories of the gate. -/
theorem category_of_gated {request : ActionRequest} {now : Int}
    (h : Gated request.agentType request.action) :
    ((DestructiveGate.isDestructive ⟨request.dump, now⟩).succeeds ||
      (DestructiveGate.isIamWrite ⟨request.dump, now⟩).succeeds ||
        (DestructiveGate.isProvisioner ⟨request.dump, now⟩).succeeds) = true := by
  have ha : Query.ref ⟨request.dump, now⟩ ["action"] = .value (.str request.action) := rfl
  have ht : Query.ref ⟨request.dump, now⟩ ["agent_type"] = .value (.str request.agentType) := rfl
  rw [DestructiveGate.isDestructive, DestructiveGate.isIamWrite, DestructiveGate.isProvisioner,
    ha, ht]
  rcases h with h | h | h
  · simp [mem, h, Eval.succeeds]
  · simp [mem, h, Eval.succeeds]
  · simp [Eval.equals, h, Eval.succeeds]

/-- The policy allows a gated request only where its context marks it as approved, with any
value but false. -/
theorem preApproved_of_allow {request : ActionRequest} {now : Int}
    (ha : effect ⟨request.dump, now⟩ = .value (.str "ALLOW"))
    (hg : Gated request.agentType request.action) :
    ∃ v, request.context.lookup "pre_approved" = some v ∧ v ≠ .bool false := by
  rw [effect_eq, DestructiveGate.holds_requiresApproval, category_of_gated hg, Bool.true_and] at ha
  have hn : (DestructiveGate.notPreApproved ⟨request.dump, now⟩).succeeds = false := by
    cases h : (DestructiveGate.notPreApproved ⟨request.dump, now⟩).succeeds with
    | false => rfl
    | true =>
      rw [h] at ha
      split at ha <;> simp at ha
  have hp : Value.path? request.dump ["context", "pre_approved"] =
      request.context.lookup "pre_approved" := by
    rw [Value.path?_cons, ActionRequest.dump_context, Option.bind_some, Value.path?_cons,
      Value.get?_obj]
    cases request.context.lookup "pre_approved" <;> rfl
  rw [DestructiveGate.notPreApproved, Query.ref, hp, Eval.naf_ofOption, Eval.succeeds_guard,
    decide_eq_false_iff_not, not_or] at hn
  obtain ⟨v, hv⟩ := Option.ne_none_iff_exists'.mp hn.1
  rw [hv] at hn
  exact ⟨v, hv, fun he ↦ hn.2 (congrArg some he)⟩

/-! ### Token claims -/

/-- `input.token_claims.active`, where the key is present. -/
def active? (q : Query) : Option Value := q.input.path? ["token_claims", "active"]

/-- The introspection body reads an active token of the calling agent. -/
theorem succeeds_validTokenIntrospected (q : Query) :
    (validTokenIntrospected q).succeeds = true ↔
      active? q = some (.bool true) ∧ q.input.path? ["token_claims", "agent_id"] ≠ none ∧
        q.input.path? ["token_claims", "agent_id"] = q.input.path? ["agent_id"] := by
  rw [validTokenIntrospected, Query.ref, Query.ref, Query.ref, ← Eval.ofOption_some,
    Eval.equals_ofOption, Eval.equals_ofOption, Eval.guard_bind_guard, Eval.succeeds_guard,
    Bool.and_eq_true, decide_eq_true_eq, decide_eq_true_eq]
  constructor
  · rintro ⟨⟨-, ha⟩, hi⟩
    exact ⟨ha, hi⟩
  · rintro ⟨ha, hi⟩
    refine ⟨⟨?_, ha⟩, hi⟩
    show active? q ≠ none
    rw [ha]
    exact Option.some_ne_none _

private theorem claims_of_active {q : Query} {v : Value} (h : active? q = some v) :
    ∃ kvs, q.ref ["token_claims"] = .value (.obj kvs) ∧ 0 < kvs.length := by
  rw [active?, Value.path?_cons] at h
  obtain ⟨claims, hc, hp⟩ := Option.bind_eq_some_iff.mp h
  rw [Value.path?_cons] at hp
  obtain ⟨w, hw, -⟩ := Option.bind_eq_some_iff.mp hp
  obtain ⟨kvs, rfl, hl⟩ := Value.get?_eq_some hw
  refine ⟨kvs, ?_, ?_⟩
  · simp [Query.ref, Value.path?_cons, hc]
  · cases kvs with
    | nil => cases hl
    | cons _ _ => exact Nat.succ_pos _

/-- On claims with the key `active`, the fallback accepts exactly the value false:
negation does not tell a false key from a missing one. -/
theorem succeeds_validTokenFallback_of_active {q : Query} {v : Value} (h : active? q = some v) :
    (validTokenFallback q).succeeds = true ↔ v = .bool false := by
  obtain ⟨kvs, hk, hl⟩ := claims_of_active h
  have hr : q.ref ["token_claims", "active"] = .value v := by
    show Eval.ofOption (active? q) = _
    rw [h]
    rfl
  have hc : lt (.int 0) (.int (kvs.length : Int)) = true := by
    simp [lt, compare_lt_iff_lt, hl]
  simp [validTokenFallback, hk, hr, count, hc, Eval.naf]

/-- What the token check promises of a query: a grant needs an active token of the calling
agent, the fallback is for claims without the key `active`, and a token reported as
inactive is denied. -/
structure TokenGoverned (q : Query) : Prop where
  granted : Granted q → active? q = some (.bool true) ∧
    q.input.path? ["token_claims", "agent_id"] ≠ none ∧
    q.input.path? ["token_claims", "agent_id"] = q.input.path? ["agent_id"]
  fallback : (validTokenFallback q).succeeds = true → active? q = none
  inactive : active? q = some (.bool false) → effect q = .value (.str "DENY")

/-- On claims with the key `active` the promise is kept exactly when its value is not
false. -/
theorem tokenGoverned_iff (q : Query) (v : Value) (h : active? q = some v) :
    TokenGoverned q ↔ v ≠ .bool false := by
  have hf := succeeds_validTokenFallback_of_active h
  constructor
  · intro hg hv
    have hn := hg.fallback (hf.mpr hv)
    rw [h] at hn
    cases hn
  · intro hv
    have hb : (validTokenFallback q).succeeds = false := by
      rw [← Bool.not_eq_true]
      exact fun hs ↦ hv (hf.mp hs)
    refine ⟨fun hg ↦ ?_, fun hs ↦ ?_, fun ha ↦ ?_⟩
    · have hp := (granted_iff q).mp hg
      have ht : (validToken q).holds = true := by
        simp only [passes, Bool.and_eq_true] at hp
        exact hp.1.1.1.1.1
      rw [holds_validToken, hb, Bool.or_false] at ht
      exact (succeeds_validTokenIntrospected q).mp ht
    · rw [hb] at hs
      cases hs
    · rw [h] at ha
      exact absurd (Option.some.inj ha) hv

/-- A request an infrastructure agent sends with the given token claims and context. -/
def describeRequest (claims context : List (String × Value)) : ActionRequest where
  agentId := "agent-infra-001"
  agentType := "InfraAgent"
  tokenClaims := claims
  action := "ec2:DescribeInstances"
  resourceArn := "arn:aws:ec2:us-east-1:*:instance/*"
  taskId := "task-001"
  environment := "staging"
  sourceIp := "10.0.1.10"
  resourceTags := []
  context := context

/-- Claims of a token of that agent with the given activity flag. -/
def describeClaims (active : Value) : List (String × Value) :=
  [("active", active), ("agent_id", .str "agent-infra-001"), ("scope", .str "cloud:ec2:describe")]

/-- An introspected active token satisfies the promise. -/
theorem tokenGoverned_active :
    active? ⟨(describeRequest (describeClaims (.bool true)) []).dump, 0⟩ = some (.bool true) ∧
      TokenGoverned ⟨(describeRequest (describeClaims (.bool true)) []).dump, 0⟩ :=
  ⟨by decide, (tokenGoverned_iff _ (.bool true) (by decide)).mpr (by decide)⟩

/-- A token reported as inactive is accepted by the fallback and the action is allowed. -/
theorem inactive_token_allowed :
    active? ⟨(describeRequest (describeClaims (.bool false)) []).dump, 0⟩ = some (.bool false) ∧
      effect ⟨(describeRequest (describeClaims (.bool false)) []).dump, 0⟩ =
        .value (.str "ALLOW") ∧
      ¬ TokenGoverned ⟨(describeRequest (describeClaims (.bool false)) []).dump, 0⟩ := by
  refine ⟨by decide, by decide, fun h ↦ ?_⟩
  have hd := h.inactive (by decide)
  revert hd
  decide

end NhiSentinel.Policy.Main
