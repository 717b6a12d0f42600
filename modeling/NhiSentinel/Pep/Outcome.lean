import NhiSentinel.Pep.Mediation

/-!
# Outcomes of an enforcement

Which runs end in a return or in one of the two exceptions that carry a decision, and
which let another exception escape.
-/

namespace NhiSentinel.Pep
open NhiSentinel.Base

/-- The exceptions that carry a decision. -/
def PyExn.governed : PyExn → Bool
  | policyDenial .. | approvalRequired .. => true
  | other _ => false

/-- Every way out of the enforcement is a governed one. -/
def GovernedOutcome (out : Except PyExn Unit) : Prop := ∀ e, out = .error e → e.governed = true

/-- A reply that no layer turns into a decision: an exception of the HTTP library that is no
request error, a success without a decision in it, an exception of the resource policy, and
a failure while an approval is queued. -/
def harmful : Event → Bool
  | ⟨.post .., .raised _⟩ => true
  | ⟨.post .., .response status body⟩ => isSuccess status && match decodeDecision body with
      | .ok _ => false
      | .error _ => true
  | ⟨.cedar _, .error _⟩ => true
  | ⟨.approvalClient, .error _⟩ => true
  | ⟨.approvalTtl, .error _⟩ => true
  | ⟨.redis (.setex ..), .error _⟩ => true
  | _ => false

/-- The claims are readable, an admitted request can be written as JSON, and no reply is
harmful. -/
structure Orderly (request : ActionRequest) (t : List Event) : Prop where
  readable : ∃ ip, tokenIp request = .ok ip
  serializable : IpBound request → t.any (suspends request.agentId) = false →
    (opaInput (request.sent t)).isJson = true
  harmless : t.any harmful = false

private theorem harmful_stage {e : Event} (h : harmful e = true) :
    e.1.stage ∈ [Stage.policy, .resource, .approval] := by
  unfold harmful at h
  split at h <;> first | exact absurd h Bool.false_ne_true | simp [Call.stage]

private theorem any_harmful_of_within {stages : List Stage} {t : List Event}
    (h : Within stages t) (hs : ∀ x ∈ [Stage.policy, .resource, .approval], x ∉ stages) :
    t.any harmful = false := by
  rw [List.any_eq_false]
  intro e he hd
  exact hs _ (harmful_stage hd) (h e he)

/-- The classes of the exceptions that the enforcement point raises by itself. -/
def ownExceptions : List String := ["AttributeError", "TypeError", "KeyError", "ValidationError"]

private theorem subscriptResult_error {v : Value} {e : PyExn} (h : subscriptResult v = .error e) :
    ∃ cls ∈ ownExceptions, e = .other cls := by
  unfold subscriptResult at h
  split at h
  · split at h
    · cases h
    · cases h
      exact ⟨_, by decide, rfl⟩
  · cases h
    exact ⟨_, by decide, rfl⟩

/-- A body that does not decode is one that cannot be read, or the enforcement point raises; it
is no decision. -/
theorem decodeDecision_error {body : Except String Value} {e : PyExn}
    (h : decodeDecision body = .error e) :
    ∃ cls, e = .other cls ∧ (cls ∈ ownExceptions ∨ body = .error cls) := by
  cases body with
  | error cls =>
    cases h
    exact ⟨cls, rfl, .inr rfl⟩
  | ok v =>
    simp only [decodeDecision, Except.mapError, bind, Except.bind] at h
    split at h
    · next hv =>
      cases h
      obtain ⟨cls, hc, rfl⟩ := subscriptResult_error hv
      exact ⟨cls, rfl, .inl hc⟩
    · split at h
      · cases h
      · cases h
        exact ⟨_, rfl, .inl (by decide)⟩

section
variable {rt : Runtime} {s : State} {t : List Event}

/-- A reply is harmful exactly when the evaluation raises, and it then raises no decision. -/
theorem Evaluated.harmful_iff (url : String) (body : Value) {reply : HttpReply}
    {out : Except PyExn PolicyDecision} (h : Evaluated reply out) :
    (harmful ⟨.post url body, reply⟩ = true ↔ ∃ e, out = .error e) ∧
      ∀ e, out = .error e → e.governed = false := by
  cases reply with
  | requestError =>
    obtain ⟨at', rfl⟩ := h
    simp [harmful]
  | raised cls =>
    cases h
    simp [harmful, PyExn.governed]
  | response status body =>
    rw [Evaluated] at h
    split at h
    · next hs =>
      subst h
      refine ⟨?_, fun e he ↦ ?_⟩
      · rw [harmful, hs, Bool.true_and]
        cases decodeDecision body <;> simp
      · obtain ⟨cls, rfl, -⟩ := decodeDecision_error he
        rfl
    · next hs =>
      obtain ⟨at', rfl⟩ := h
      simp [harmful, hs]

/-- Queueing raises exactly when a reply is harmful, and it then raises no decision. -/
theorem Queueing.harmful_iff {request : ActionRequest} {decision : PolicyDecision}
    {out : Except PyExn String} (h : Queueing rt request decision t out) :
    (t.any harmful = true ↔ ∃ e, out = .error e) ∧ ∀ e, out = .error e → e.governed = false := by
  cases h with
  | clientFailed | ttlFailed => simp [harmful, PyExn.governed]
  | written requestId now ttl reply =>
    cases reply <;> simp [harmful, PyExn.governed, Except.mapError, Except.map]

/-- Acting on a decision has a governed outcome exactly when no reply is harmful. -/
theorem Acted.governed_iff {request : ActionRequest} {decision : PolicyDecision}
    {out : Except PyExn Unit} (h : Acted rt request decision t out) :
    GovernedOutcome out ↔ t.any harmful = false := by
  cases h with
  | deny | ungoverned => simp [GovernedOutcome, PyExn.governed]
  | resource _ _ _ d => cases hp : d.permitted <;> simp [GovernedOutcome, PyExn.governed, harmful]
  | resourceFailed => simp [GovernedOutcome, PyExn.governed, harmful]
  | queued _ hq =>
    have hn : ¬ t.any harmful = true := fun hh ↦ by
      obtain ⟨e, he⟩ := hq.harmful_iff.1.mp hh
      cases he
    simp [GovernedOutcome, PyExn.governed, Bool.eq_false_iff.mpr hn]
  | @queueFailed _ _ e hq =>
    have hh : t.any harmful = true := hq.harmful_iff.1.mpr ⟨e, rfl⟩
    simp [GovernedOutcome, hh, hq.harmful_iff.2 e rfl]

/-- What comes after the counting does not change the request that is sent. -/
theorem sent_append {u : List Event} (hu : Within [.policy, .resource, .approval, .clock] u)
    (request : ActionRequest) : request.sent (t ++ u) = request.sent t := by
  have hi := injected_append (t := []) (u := t) (within_nil _) hu (by decide)
  rw [List.nil_append] at hi
  rw [ActionRequest.sent, ActionRequest.sent, hi]

private theorem any_harmful {u v : List Event} {e : Event} (ha : Admitted s t)
    (hu : Within [.clock] u) :
    (t ++ e :: (u ++ v)).any harmful = (harmful e || v.any harmful) := by
  rw [List.any_append, List.any_cons, List.any_append, any_harmful_of_within ha.within (by decide),
    any_harmful_of_within hu (by decide), Bool.false_or, Bool.false_or]

/-- An enforcement has a governed outcome exactly in an orderly run. -/
theorem enforce_governed_iff {out : Except PyExn Unit} {s' : State}
    (h : Py.Run (enforce rt) s t out s') : GovernedOutcome out ↔ Orderly s.request t := by
  cases enforce_run h with
  | unbound hb ip hip =>
    exact ⟨fun _ ↦ ⟨⟨ip, hip⟩, fun hb' ↦ absurd hb' hb, rfl⟩,
      fun _ ↦ by simp [GovernedOutcome, PyExn.governed]⟩
  | illTyped e hip =>
    constructor
    · intro hg
      cases hg _ rfl
    · rintro ⟨⟨ip, hi⟩, -, -⟩
      cases hip.symm.trans hi
  | suspended hb hw hs =>
    obtain ⟨ip, hi, -⟩ := hb
    refine ⟨fun _ ↦ ⟨⟨ip, hi⟩, fun _ hn ↦ ?_, any_harmful_of_within hw (by decide)⟩,
      fun _ ↦ by simp [GovernedOutcome, PyExn.governed]⟩
    cases hs.symm.trans hn
  | unserializable ha hj =>
    constructor
    · intro hg
      cases hg _ rfl
    · intro ho
      cases hj.symm.trans (ho.serializable ha.bound ha.unsuspended)
  | @unevaluated t u ha hj reply e hr hu =>
    have hx := hr.harmful_iff (opaAddress s.pep) (opaInput (s.request.sent t))
    constructor
    · intro hg
      cases (hx.2 e rfl).symm.trans (hg e rfl)
    · intro ho
      have hh := any_harmful (v := [])
        (e := ⟨.post (opaAddress s.pep) (opaInput (s.request.sent t)), reply⟩) ha hu
      rw [List.append_nil, ho.harmless, hx.1.mpr ⟨e, rfl⟩] at hh
      cases hh
  | @evaluated t u v ha hj reply decision hr hu out hd =>
    have hx := hr.harmful_iff (opaAddress s.pep) (opaInput (s.request.sent t))
    have hr' : harmful ⟨.post (opaAddress s.pep) (opaInput (s.request.sent t)), reply⟩ = false := by
      rw [Bool.eq_false_iff]
      intro hh
      obtain ⟨e, he⟩ := hx.1.mp hh
      cases he
    have hq : s.request.sent
        (t ++ ⟨.post (opaAddress s.pep) (opaInput (s.request.sent t)), reply⟩ :: (u ++ v)) =
          s.request.sent t :=
      sent_append ((within_cons ..).mpr ⟨by simp [Call.stage], (within_append ..).mpr
        ⟨hu.mono (by decide), hd.within.mono (by decide)⟩⟩) _
    obtain ⟨ip, hi, -⟩ := ha.bound
    rw [hd.governed_iff]
    constructor
    · intro hh
      refine ⟨⟨ip, hi⟩, fun _ _ ↦ by rw [hq, hj], ?_⟩
      rw [any_harmful ha hu, hr', hh]
      rfl
    · intro ho
      have hh := ho.harmless
      rw [any_harmful ha hu, hr', Bool.false_or] at hh
      exact hh

end

/-- An enforcement that the policy engine allows has a governed outcome. -/
theorem enforce_governed_allowed :
    let run := Py.exec (services (decided "ALLOW") 0) (enforce asciiRuntime) start
    Orderly getObject run.1 ∧ (GovernedOutcome run.2.1 ↔ Orderly getObject run.1) := by
  have h := enforce_governed_iff
    (Py.run_exec (services (decided "ALLOW") 0) (enforce asciiRuntime) start)
  refine ⟨h.mp ?_, h⟩
  intro e he
  have ho : (Py.exec (services (decided "ALLOW") 0) (enforce asciiRuntime) start).2.1 = .ok () := by
    decide
  rw [ho] at he
  cases he

/-- An empty object from the policy engine, which is its answer for an undefined document,
escapes as a key error. -/
theorem enforce_empty_reply :
    let run := Py.exec (services (.response 200 (.ok (.obj []))) 0) (enforce asciiRuntime) start
    run.2.1 = .error (.other "KeyError") ∧ ¬ GovernedOutcome run.2.1 := by
  have h : (Py.exec (services (.response 200 (.ok (.obj []))) 0) (enforce asciiRuntime) start).2.1 =
      .error (.other "KeyError") := by decide
  refine ⟨h, fun hg ↦ ?_⟩
  cases hg _ h

/-! ### Exceptions that are no decision -/

/-- The class of the exception that a service raises and no layer catches. -/
def raised? : Event → Option String
  | ⟨.post .., .raised cls⟩ => some cls
  | ⟨.post .., .response _ (.error cls)⟩ => some cls
  | ⟨.cedar _, .error cls⟩ => some cls
  | ⟨.approvalClient, .error cls⟩ => some cls
  | ⟨.approvalTtl, .error cls⟩ => some cls
  | ⟨.redis (.setex ..), .error cls⟩ => some cls
  | _ => none

/-- A class that the enforcement point or one of its services brought up. -/
def Raised (t : List Event) (cls : String) : Prop :=
  cls ∈ ownExceptions ∨ ∃ e ∈ t, raised? e = some cls

private theorem Raised.append_right {t u : List Event} {cls : String} (h : Raised u cls) :
    Raised (t ++ u) cls :=
  h.imp_right fun ⟨e, he, hr⟩ ↦ ⟨e, List.mem_append_right t he, hr⟩

section
variable {rt : Runtime} {s : State} {t : List Event} {cls : String}

/-- What an evaluation raises comes from the reply of the policy engine. -/
theorem Evaluated.raised {url : String} {body : Value} {reply : HttpReply}
    {out : Except PyExn PolicyDecision} (h : Evaluated reply out)
    (ho : out = .error (.other cls)) : Raised [⟨.post url body, reply⟩] cls := by
  subst ho
  cases reply with
  | requestError =>
    obtain ⟨at', h⟩ := h
    cases h
  | raised cls' =>
    cases h
    exact .inr ⟨_, List.mem_singleton_self _, rfl⟩
  | response status body =>
    rw [Evaluated] at h
    split at h
    · obtain ⟨cls', he, h | rfl⟩ := decodeDecision_error h.symm
      · cases he
        exact .inl h
      · cases he
        exact .inr ⟨_, List.mem_singleton_self _, rfl⟩
    · obtain ⟨at', h⟩ := h
      cases h

/-- What queueing raises comes from one of its replies. -/
theorem Queueing.raised {request : ActionRequest} {decision : PolicyDecision}
    {out : Except PyExn String} (h : Queueing rt request decision t out)
    (ho : out = .error (.other cls)) : Raised t cls := by
  cases h with
  | clientFailed | ttlFailed =>
    cases ho
    exact .inr (by simp [raised?])
  | written requestId now ttl reply =>
    cases reply with
    | ok u => cases ho
    | error cls' =>
      cases ho
      exact .inr (by simp [raised?])

/-- What acting on a decision raises comes from one of its replies. -/
theorem Acted.raised {request : ActionRequest} {decision : PolicyDecision}
    {out : Except PyExn Unit} (h : Acted rt request decision t out)
    (ho : out = .error (.other cls)) : Raised t cls := by
  cases h with
  | deny | ungoverned | queued => cases ho
  | resource _ _ _ d =>
    split at ho <;> cases ho
  | resourceFailed =>
    cases ho
    exact .inr ⟨_, List.mem_singleton_self _, rfl⟩
  | queueFailed _ hq =>
    cases ho
    exact hq.raised rfl

/-- An exception of an enforcement that is no decision is one of its own or one that a service
raised. -/
theorem Enforced.raised {out : Except PyExn Unit} (h : Enforced rt s t out)
    (ho : out = .error (.other cls)) : Raised t cls := by
  cases h with
  | unbound | suspended => cases ho
  | illTyped | unserializable =>
    cases ho
    exact .inl (by decide)
  | unevaluated ha hj reply e hr hu =>
    cases ho
    apply Raised.append_right
    exact (hr.raised rfl).imp_right fun ⟨e, he, hx⟩ ↦
      ⟨e, List.mem_cons.mpr (.inl (List.mem_singleton.mp he)), hx⟩
  | evaluated ha hj reply decision hr hu hd =>
    apply Raised.append_right
    rw [← List.cons_append]
    exact (hd.raised ho).append_right

end

end NhiSentinel.Pep
