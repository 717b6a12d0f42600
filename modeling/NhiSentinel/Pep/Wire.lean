import NhiSentinel.Pep.Outcome
import NhiSentinel.Policy.Reason

/-!
# The wire between policy and enforcement

The reply of a policy server that holds `nhi/main.rego`, read by the enforcement point. The
time of a decision is a number on one side and a text on the other, so no response of the
policy is read as a decision.
-/

namespace NhiSentinel.Pep
open NhiSentinel.Base NhiSentinel.Rego NhiSentinel.Policy

/-- The reply of a policy server to a query. -/
def policyReply (q : Query) : HttpReply :=
  .response (dataApi (Main.response q)).1 (.ok (dataApi (Main.response q)).2)

/-- What a decision makes of an enforcement: a return or the resource policy's denial on ALLOW,
an approval request on REQUIRE_APPROVAL, a denial on DENY. -/
def ActsOn (decision : PolicyDecision) (out : Except PyExn Unit) : Prop :=
  match decision.effect with
  | .allow => out = .ok () ∨ ∃ action reason,
      out = .error (.policyDenial action reason "nhi.cedar.resource_policy")
  | .requireApproval => ∃ action resourceArn requestId,
      out = .error (.approvalRequired action resourceArn requestId)
  | .deny => ∃ action, out =
      .error (.policyDenial action decision.reason decision.policyRef)

/-- What is promised of a response: the reply that carries it is read as a decision with the
same effect and reason, and an enforcement that gets this reply acts on it, as long as no
other service fails. -/
structure WireAccepted (response : Value) : Prop where
  decoded : ∃ decision,
    decodeDecision (.ok (.obj [("result", response)])) = .ok decision ∧
      response.get? "effect" = some (.str decision.effect.text) ∧
      response.get? "reason" = some (.str decision.reason) ∧
      ∀ rt s t out s' url body, Py.Run (enforce rt) s t out s' →
        ⟨.post url body, .response 200 (.ok (.obj [("result", response)]))⟩ ∈ t →
        t.any harmful = false → ActsOn decision out

/-- Every response carries its time as a number. -/
theorem response_evaluatedAt {q : Query} {v : Value} (h : Main.response q = .value v) :
    v.get? "evaluated_at" = some (.int q.now) := by
  rw [Main.response_eq, Main.effect_eq] at h
  cases hr : Main.reason q with
  | undefined =>
    rw [hr] at h
    cases h
  | error e =>
    rw [hr] at h
    cases h
  | value r =>
    rw [hr] at h
    simp only [Eval.bind] at h
    split at h
    · cases h
      rfl
    · cases h

/-- No response is read as a decision. -/
theorem decodeDecision_response {q : Query} {v : Value} (h : Main.response q = .value v) :
    decodeDecision (.ok (.obj [("result", v)])) = .error (.other "ValidationError") := by
  have hn : PolicyDecision.validate? v = none :=
    PolicyDecision.validate?_of_evaluatedAt (response_evaluatedAt h) rfl
  simp [decodeDecision, subscriptResult, hn, Except.mapError, bind, Except.bind]

/-- How an evaluation ends on the reply of the policy server: a response is refused, an
undefined one is missing, and a conflict of the policy is a denial. -/
theorem evaluated_policyReply {q : Query} {out : Except PyExn PolicyDecision}
    (h : Evaluated (policyReply q) out) :
    ((∃ v, Main.response q = .value v) ∧ out = .error (.other "ValidationError")) ∨
      (Main.response q = .undefined ∧ out = .error (.other "KeyError")) ∨
      (Main.response q = .error .conflict ∧
        ∃ at', out = .ok (failClosed "Policy engine returned HTTP 500" at')) := by
  rw [policyReply] at h
  cases hr : Main.response q with
  | value v =>
    rw [hr] at h
    change out = decodeDecision (.ok (.obj [("result", v)])) at h
    rw [decodeDecision_response hr] at h
    exact .inl ⟨⟨v, rfl⟩, h⟩
  | undefined =>
    rw [hr] at h
    exact .inr (.inl ⟨rfl, h⟩)
  | error e =>
    cases e
    rw [hr] at h
    exact .inr (.inr ⟨rfl, h⟩)

/-- An evaluation that gets a response of the policy raises a validation error, whatever the
input is: no response is accepted. -/
theorem evaluate_refuses_response (q : Query) (v : Value) (h : Main.response q = .value v) :
    (∀ s t out s' url body, Py.Run evaluate s t out s' → ⟨.post url body, policyReply q⟩ ∈ t →
      out = .error (.other "ValidationError")) ∧ ¬ WireAccepted v := by
  constructor
  · intro s t out s' url body hr hm
    obtain ⟨-, ⟨-, rfl, -⟩ | ⟨-, reply, u, rfl, hu, he⟩⟩ := evaluate_run hr
    · cases hm
    · rcases List.mem_cons.mp hm with hx | hx
      · cases hx
        rcases evaluated_policyReply he with ⟨-, ho⟩ | ⟨hn, -⟩ | ⟨hn, -⟩
        · exact ho
        · cases h.symm.trans hn
        · cases h.symm.trans hn
      · cases hu _ hx with
        | tail _ hx => cases hx
  · rintro ⟨decision, hd, -⟩
    cases (decodeDecision_response h).symm.trans hd

/-- The query of an active agent that the policy allows. -/
def allowedQuery : Query := ⟨(Main.describeRequest (Main.describeClaims (.bool true)) []).dump, 0⟩

/-- The response to that query. -/
def allowedResponse : Value :=
  Main.responseObject allowedQuery (.str "ALLOW") (.str "Action denied by policy")

/-- The response to an allowed query is refused. -/
theorem evaluate_refuses_allowed :
    Main.response allowedQuery = .value allowedResponse ∧
      (∀ s t out s' url body, Py.Run evaluate s t out s' →
        ⟨.post url body, policyReply allowedQuery⟩ ∈ t →
        out = .error (.other "ValidationError")) ∧ ¬ WireAccepted allowedResponse :=
  ⟨by decide +kernel, evaluate_refuses_response allowedQuery allowedResponse (by decide +kernel)⟩

/-- The policy allows a request, and its enforcement ends in a validation error. -/
theorem allowed_query_raises :
    Main.effect allowedQuery = .value (.str "ALLOW") ∧
      Main.response allowedQuery = .value allowedResponse ∧
      decodeDecision (.ok (.obj [("result", allowedResponse)])) =
        .error (.other "ValidationError") ∧
      (Py.exec (services (policyReply allowedQuery) 0) (enforce asciiRuntime)
        ⟨⟨"http://localhost:8181", false⟩,
          Main.describeRequest (Main.describeClaims (.bool true)) []⟩).2.1 =
        .error (.other "ValidationError") ∧
      ¬ WireAccepted allowedResponse := by
  have hd : decodeDecision (.ok (.obj [("result", allowedResponse)])) =
      .error (.other "ValidationError") := by
    decide +kernel
  refine ⟨by decide +kernel, by decide +kernel, hd, by decide +kernel, ?_⟩
  rintro ⟨decision, h, -⟩
  cases hd.symm.trans h

end NhiSentinel.Pep
