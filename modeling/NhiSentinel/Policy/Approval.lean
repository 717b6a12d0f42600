import NhiSentinel.Policy.Decision

/-!
# Approving a request

What marking the context as pre-approved changes: the checks of `nhi/main.rego` read
parts of the input that lie apart from the mark, so only the approval gate sees it.
-/

namespace NhiSentinel.Policy
open NhiSentinel.Base NhiSentinel.Rego

/-- Where the mark of an approved request stands. -/
def approvalPath : List String := ["context", "pre_approved"]

/-- The same evaluation with `context.pre_approved` replaced by true. -/
def Query.approve (q : Query) : Query where
  input := replaceAt (.bool true) approvalPath q.input
  now := q.now

/-- Two evaluations at one time whose inputs agree on everything apart from a path. -/
structure AgreeOff (path : List String) (q q' : Query) : Prop where
  now : q.now = q'.now
  ref : ∀ path', Apart path path' → q.ref path' = q'.ref path'

private theorem Query.agreeOff_approve (q : Query) : AgreeOff approvalPath q.approve q :=
  ⟨rfl, fun _ h ↦ congrArg Eval.ofOption (path?_replaceAt_of_apart _ h q.input)⟩

/-! ### What the checks read -/

section Reads

variable {q q' : Query}

private theorem validToken_congr (h : AgreeOff approvalPath q q') :
    Main.validToken q = Main.validToken q' := by
  unfold Main.validToken Main.validTokenIntrospected Main.validTokenFallback
  rw [h.ref ["token_claims", "active"] (by decide), h.ref ["token_claims", "agent_id"] (by decide),
    h.ref ["agent_id"] (by decide), h.ref ["token_claims"] (by decide)]

private theorem actionInScope_congr (h : AgreeOff approvalPath q q') :
    ScopeCheck.actionInScope q = ScopeCheck.actionInScope q' := by
  unfold ScopeCheck.actionInScope ScopeCheck.inScopeString ScopeCheck.inScopeArray
  rw [h.ref ["action"] (by decide), h.ref ["token_claims", "scope"] (by decide),
    h.ref ["token_claims", "scopes"] (by decide)]

private theorem withinWindow_congr (h : AgreeOff approvalPath q q') :
    TimeWindow.withinWindow q = TimeWindow.withinWindow q' := by
  unfold TimeWindow.withinWindow TimeWindow.undeclared TimeWindow.exempt TimeWindow.inside
  rw [h.ref ["context", "time_window"] (by decide), h.ref ["agent_type"] (by decide),
    h.ref ["context", "incident_id"] (by decide), h.now]

private theorem taskIsActive_congr (h : AgreeOff approvalPath q q') :
    TaskScope.taskIsActive q = TaskScope.taskIsActive q' := by
  unfold TaskScope.taskIsActive
  rw [h.ref ["task_id"] (by decide)]

private theorem environmentAllowed_congr (h : AgreeOff approvalPath q q') :
    TaskScope.environmentAllowed q = TaskScope.environmentAllowed q' := by
  unfold TaskScope.environmentAllowed TaskScope.undeclared TaskScope.declared
  rw [h.ref ["context", "allowed_environments"] (by decide), h.ref ["environment"] (by decide)]

private theorem withinRateLimit_congr (h : AgreeOff approvalPath q q') :
    RateLimit.withinRateLimit q = RateLimit.withinRateLimit q' := by
  unfold RateLimit.withinRateLimit RateLimit.uncounted RateLimit.belowLimit
    RateLimit.maxActionsPerMinute
  rw [h.ref ["context", "current_action_count_per_minute"] (by decide),
    h.ref ["context", "max_actions_per_minute"] (by decide)]

/-- The six checks do not see the mark. -/
theorem passes_congr (h : AgreeOff approvalPath q q') : Main.passes q = Main.passes q' := by
  unfold Main.passes
  rw [validToken_congr h, actionInScope_congr h, withinWindow_congr h, taskIsActive_congr h,
    environmentAllowed_congr h, withinRateLimit_congr h]

end Reads

/-! ### The gate -/

/-- A marked request does not require approval. -/
theorem requiresApproval_of_marked {q : Query}
    (h : q.input.path? approvalPath = some (.bool true)) :
    (DestructiveGate.requiresApproval q).holds = false := by
  have hn : (DestructiveGate.notPreApproved q).succeeds = false := by
    rw [DestructiveGate.notPreApproved]
    show (Eval.naf (.ofOption (q.input.path? approvalPath))).succeeds = false
    rw [h]
    rfl
  rw [DestructiveGate.holds_requiresApproval, hn, Bool.and_false]

private theorem Query.approve_marked (q : Query) :
    q.approve.input.path? approvalPath = some (.bool true) :=
  path?_replaceAt _ _ _

namespace Main

/-- An approval is derivable exactly past the checks and behind the gate. -/
theorem derivable_requireApproval_iff (q : Query) :
    Derivable q "REQUIRE_APPROVAL" ↔
      passes q = true ∧ (DestructiveGate.requiresApproval q).holds = true := by
  rw [Derivable, effectBodies_eq]
  cases passes q <;> cases (DestructiveGate.requiresApproval q).holds <;> simp

/-- ALLOW is derivable exactly past the checks where the gate is open. -/
theorem derivable_allow_iff (q : Query) :
    Derivable q "ALLOW" ↔
      passes q = true ∧ (DestructiveGate.requiresApproval q).holds = false := by
  rw [Derivable, effectBodies_eq]
  cases passes q <;> cases (DestructiveGate.requiresApproval q).holds <;> simp

/-- Approval lifts the gate and nothing else: what it makes of each effect, and that the
two effects past the checks exclude each other. -/
structure LiftsOnlyTheGate (q : Query) : Prop where
  deny : effect q = .value (.str "DENY") → effect q.approve = .value (.str "DENY")
  requireApproval :
    effect q = .value (.str "REQUIRE_APPROVAL") → effect q.approve = .value (.str "ALLOW")
  allow : effect q = .value (.str "ALLOW") → effect q.approve = .value (.str "ALLOW")
  total : effect q = .value (.str "DENY") ∨ effect q = .value (.str "REQUIRE_APPROVAL") ∨
    effect q = .value (.str "ALLOW")
  exclusive : ¬ (Derivable q "ALLOW" ∧ Derivable q "REQUIRE_APPROVAL")
  marked : q.input.path? approvalPath = some (.bool true) → ¬ Derivable q "REQUIRE_APPROVAL"

/-- The effect after approval is ALLOW past the checks. -/
theorem effect_approve (q : Query) :
    effect q.approve = .value (.str (if passes q then "ALLOW" else "DENY")) := by
  rw [effect_eq, passes_congr q.agreeOff_approve, requiresApproval_of_marked q.approve_marked]
  simp

/-- On every input and at every time approval only lifts the gate. -/
theorem approve_liftsOnlyTheGate (q : Query) : LiftsOnlyTheGate q := by
  have hd := derivable_allow_iff q
  have hr := derivable_requireApproval_iff q
  constructor
  · intro h
    rw [effect_approve, (effect_eq_deny_iff q).mp h]
    rfl
  · intro h
    rw [effect_approve, (granted_iff q).mp (.inr h)]
    rfl
  · intro h
    rw [effect_approve, (granted_iff q).mp (.inl h)]
    rfl
  · rw [effect_eq]
    cases passes q <;> cases (DestructiveGate.requiresApproval q).holds <;> simp
  · rintro ⟨ha, hq⟩
    have hg := (hd.mp ha).2
    rw [(hr.mp hq).2] at hg
    cases hg
  · intro hm hq
    have hg := (hr.mp hq).2
    rw [requiresApproval_of_marked hm] at hg
    cases hg

end Main
end NhiSentinel.Policy
