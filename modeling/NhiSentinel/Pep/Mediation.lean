import NhiSentinel.Pep.Runs

/-!
# Complete mediation

A tool function runs exactly when every layer cleared the request, whatever the services
answer, and a request that fails before the policy engine reaches none of the later
services.
-/

namespace NhiSentinel.Pep
open NhiSentinel.Base

/-- The policy engine answers with a success that decodes to ALLOW. -/
def opaAllows : Event → Bool
  | ⟨.post .., .response status body⟩ =>
    isSuccess status && match decodeDecision body with
      | .ok decision => decision.effect = .allow
      | .error _ => false
  | _ => false

/-- The resource policy permits. -/
def cedarPermits : Event → Bool
  | ⟨.cedar _, .ok d⟩ => d.permitted
  | _ => false

/-- The number of calls of a stage. -/
def calls (stage : Stage) (t : List Event) : Nat := t.countP (·.1.stage = stage)

/-- The resource policy governs the action. -/
def CedarGoverned (action : String) : Prop :=
  "s3:".toList <+: action.toList ∨ "iam:".toList <+: action.toList

/-- Every layer clears the request. -/
structure Cleared (request : ActionRequest) (t : List Event) : Prop where
  bound : IpBound request
  unsuspended : t.any (suspends request.agentId) = false
  allowed : t.any opaAllows = true
  permitted : CedarGoverned request.action → t.any cedarPermits = true

/-- A Redis client is there for the suspension check: from before, or from the first call. -/
def HasClient (s : State) (t : List Event) : Prop :=
  s.pep.redis = true ∨ t.head? = some ⟨.connect, .ok ()⟩

/-- The agent is looked up once among the suspended ones. -/
def CheckedOnce (agentId : String) (t : List Event) : Prop :=
  ∃ reply, t.filter (·.1.stage = .suspension) =
    [⟨.redis (.sismember "identities:suspended" agentId), reply⟩]

/-- What mediation promises of a run: the tool is called exactly once for a cleared request
and not at all for another, which ends in an exception; the suspended agents, the policy engine
and the resource policy are asked wherever their answer counts; and a request that fails the
address or the suspension check gets no further. -/
structure Mediated (s : State) (t : List Event) (out : Except PyExn Value) : Prop where
  called : calls .tool t = 1 ↔ Cleared s.request t
  uncalled : ¬ Cleared s.request t → calls .tool t = 0 ∧ ∃ e, out = .error e
  checked : IpBound s.request → HasClient s t → CheckedOnce s.request.agentId t
  asked : IpBound s.request → t.any (suspends s.request.agentId) = false →
    (opaInput (s.request.sent t)).isJson = true → calls .policy t = 1
  resource : t.any opaAllows = true → CedarGoverned s.request.action → calls .resource t = 1
  stopped : ¬ IpBound s.request ∨ t.any (suspends s.request.agentId) = true →
    calls .policy t = 0 ∧ calls .resource t = 0 ∧ calls .approval t = 0 ∧ calls .counter t = 0

private theorem opaAllows_stage {e : Event} (h : opaAllows e = true) : e.1.stage = .policy := by
  unfold opaAllows at h
  split at h
  · rfl
  · cases h

private theorem cedarPermits_stage {e : Event} (h : cedarPermits e = true) :
    e.1.stage = .resource := by
  unfold cedarPermits at h
  split at h
  · rfl
  · cases h

/-- The calls of a stage in two traces, one after the other. -/
@[simp] theorem calls_append (stage : Stage) (t u : List Event) :
    calls stage (t ++ u) = calls stage t + calls stage u := List.countP_append

private theorem calls_of_within {stages : List Stage} {stage : Stage} {t : List Event}
    (h : Within stages t) (hs : stage ∉ stages) : calls stage t = 0 := by
  rw [calls, List.countP_eq_zero]
  intro e he hd
  rw [decide_eq_true_eq] at hd
  exact hs (hd ▸ h e he)

/-- The resource policy governs the actions that have a resource type. -/
theorem inferCedarResourceType_eq_none_iff (action : String) :
    inferCedarResourceType action = none ↔ ¬ CedarGoverned action := by
  rw [inferCedarResourceType, CedarGoverned]
  split
  · next h =>
    simp only [reduceCtorEq, false_iff, not_not]
    exact .inl h
  · next h =>
    split
    · next h' =>
      simp only [reduceCtorEq, false_iff, not_not]
      exact .inr h'
    · next h' =>
      simp only [true_iff, not_or]
      exact ⟨h, h'⟩

/-! ### Enforcement -/

section
variable {rt : Runtime} {s : State} {t : List Event}

/-- Queueing a request writes its record and reads the clock. -/
theorem Queueing.within {request : ActionRequest} {decision : PolicyDecision}
    {out : Except PyExn String} (h : Queueing rt request decision t out) :
    Within [.approval, .clock] t := by
  cases h <;> simp [Call.stage]

/-- Acting on a decision asks for the resource or for an approval. -/
theorem Acted.within {request : ActionRequest} {decision : PolicyDecision}
    {out : Except PyExn Unit} (h : Acted rt request decision t out) :
    Within [.resource, .approval, .clock] t := by
  cases h with
  | deny | ungoverned => exact within_nil _
  | resource | resourceFailed => simp [Call.stage]
  | queued _ hq | queueFailed _ hq => exact hq.within.mono (by decide)

/-- A count is that of the counter. -/
theorem increment?_stage {e : Event} {count : Int} (h : increment? e = some count) :
    e.1.stage = .counter := by
  unfold increment? at h
  split at h
  · rfl
  · cases h

/-- What an increment has answered is injected, unless it was the first and its key could not be
given a time to live. -/
theorem Admitted.injected_of_mem (h : Admitted s t) {e : Event} (he : e ∈ t) {count : Int}
    (hc : increment? e = some count) : injected t = some count ∨ count = 1 := by
  obtain ⟨u, v, rfl, hu, hv⟩ := h.counted
  have hi : injected (u ++ v) = injected v := by
    simpa using injected_append (v := []) hu (within_nil _) (by decide)
  rw [hi]
  rcases List.mem_append.mp he with he | he
  · exact absurd (hu e he) (by rw [increment?_stage hc]; decide)
  · rcases hv with rfl | ⟨n, hn⟩
    · cases he
    · rw [hn.injected]
      cases hn with
      | failed | unexpired | first =>
        simp only [List.mem_cons, List.not_mem_nil, or_false] at he
        rcases he with rfl | rfl | rfl <;> simp_all [increment?]
      | next now n hn' =>
        simp only [List.mem_cons, List.not_mem_nil, or_false] at he
        rcases he with rfl | rfl <;> simp_all [increment?]

/-- An enforcement never calls the tool. -/
theorem Enforced.within {out : Except PyExn Unit} (h : Enforced rt s t out) :
    Within [.connection, .suspension, .clock, .counter, .policy, .resource, .approval] t := by
  cases h with
  | unbound | illTyped => exact within_nil _
  | suspended _ hw => exact hw.mono (by decide)
  | unserializable ha => exact ha.within.mono (by decide)
  | unevaluated ha _ _ _ _ hu =>
    rw [within_append, within_cons]
    exact ⟨ha.within.mono (by decide), by simp [Call.stage], hu.mono (by decide)⟩
  | evaluated ha _ _ _ _ hu hd =>
    rw [within_append, within_cons, within_append]
    exact ⟨ha.within.mono (by decide), by simp [Call.stage], hu.mono (by decide),
      hd.within.mono (by decide)⟩

/-- A reply is an allowing one exactly when the evaluation gives ALLOW. -/
theorem opaAllows_iff {url : String} {body : Value} {reply : HttpReply}
    {out : Except PyExn PolicyDecision} (h : Evaluated reply out) :
    opaAllows ⟨.post url body, reply⟩ = true ↔ ∃ d, out = .ok d ∧ d.effect = .allow := by
  cases reply with
  | requestError =>
    obtain ⟨at', rfl⟩ := h
    simp [opaAllows, failClosed]
  | raised cls =>
    cases h
    simp [opaAllows]
  | response status body =>
    rw [Evaluated] at h
    split at h
    · next hs =>
      subst h
      rw [opaAllows, hs, Bool.true_and]
      cases decodeDecision body <;> simp
    · next hs =>
      obtain ⟨at', rfl⟩ := h
      simp [opaAllows, hs, failClosed]

/-- Acting on a decision ends normally for an allowed action that the resource policy permits
or does not govern. -/
theorem Acted.ok_iff {request : ActionRequest} {decision : PolicyDecision}
    {out : Except PyExn Unit} (h : Acted rt request decision t out) :
    out = .ok () ↔ decision.effect = .allow ∧
      (CedarGoverned request.action → t.any cedarPermits = true) := by
  have hi := inferCedarResourceType_eq_none_iff request.action
  cases h with
  | deny h => simp [h]
  | ungoverned h hg => simp [h, hi.mp hg]
  | resource h resourceType hg d =>
    have hv : CedarGoverned request.action := by
      rw [← not_not (a := CedarGoverned _), ← hi, hg]
      exact Option.some_ne_none _
    cases hp : d.permitted <;> simp [h, hv, cedarPermits, hp]
  | resourceFailed h resourceType hg cls =>
    have hv : CedarGoverned request.action := by
      rw [← not_not (a := CedarGoverned _), ← hi, hg]
      exact Option.some_ne_none _
    simp [hv, cedarPermits]
  | queued h => simp [h]
  | queueFailed h => simp [h]

/-- The resource policy is asked once about an allowed action that it governs. -/
theorem Acted.resource_calls {request : ActionRequest} {decision : PolicyDecision}
    {out : Except PyExn Unit} (h : Acted rt request decision t out)
    (ha : decision.effect = .allow) (hg : CedarGoverned request.action) :
    calls .resource t = 1 := by
  cases h with
  | deny h | queued h | queueFailed h => cases h.symm.trans ha
  | ungoverned _ hn => exact absurd hg ((inferCedarResourceType_eq_none_iff _).mp hn)
  | resource | resourceFailed => simp [calls, Call.stage]

section
variable {u v : List Event} {reply : HttpReply} {x : Except PyExn PolicyDecision} {url : String}
  {body : Value}

/-- Only the reply of the policy engine can allow. -/
theorem any_opaAllows (ha : Admitted s t) (hr : Evaluated reply x)
    (hu : Within [.resource, .approval, .clock] u) :
    (t ++ ⟨.post url body, reply⟩ :: u).any opaAllows = true ↔
      ∃ d, x = .ok d ∧ d.effect = .allow := by
  rw [List.any_append, List.any_cons,
    any_of_within (fun _ ↦ opaAllows_stage) ha.within (by decide),
    any_of_within (fun _ ↦ opaAllows_stage) hu (by decide), Bool.false_or, Bool.or_false,
    opaAllows_iff hr]

private theorem any_suspends (ha : Admitted s t) (hu : Within [.resource, .approval, .clock] u) :
    (t ++ ⟨.post url body, reply⟩ :: u).any (suspends s.request.agentId) = false := by
  rw [List.any_append, List.any_cons, ha.unsuspended,
    any_of_within (fun _ ↦ suspends_stage) hu (by decide)]
  rfl

private theorem calls_policy (ha : Admitted s t) (hu : Within [.resource, .approval, .clock] u) :
    calls .policy (t ++ ⟨.post url body, reply⟩ :: u) = 1 := by
  rw [calls_append, calls_of_within ha.within (by decide), calls, List.countP_cons]
  show 0 + (calls .policy u + 1) = 1
  rw [calls_of_within hu (by decide)]

private theorem within_act (hu : Within [.clock] u) (hv : Within [.resource, .approval, .clock] v) :
    Within [.resource, .approval, .clock] (u ++ v) :=
  (within_append ..).mpr ⟨hu.mono (by decide), hv⟩

end

/-- An enforcement returns exactly for a cleared request. -/
theorem Enforced.ok_iff {out : Except PyExn Unit} (h : Enforced rt s t out) :
    out = .ok () ↔ Cleared s.request t := by
  cases h with
  | unbound hb => exact ⟨nofun, fun h ↦ absurd h.bound hb⟩
  | illTyped e hip =>
    refine ⟨nofun, fun h ↦ ?_⟩
    obtain ⟨ip, hi, -⟩ := h.bound
    cases hip.symm.trans hi
  | suspended _ _ hs => exact ⟨nofun, fun h ↦ by cases hs.symm.trans h.unsuspended⟩
  | unserializable ha =>
    refine ⟨nofun, fun h ↦ ?_⟩
    cases h.allowed.symm.trans (any_of_within (fun _ ↦ opaAllows_stage) ha.within (by decide))
  | unevaluated ha _ reply e hr hu =>
    refine ⟨nofun, fun h ↦ ?_⟩
    obtain ⟨d, hd, -⟩ := (any_opaAllows ha hr (hu.mono (by decide))).mp h.allowed
    cases hd
  | @evaluated t u v ha hj reply decision hr hu out hd =>
    have hw := within_act hu hd.within
    have ho : (t ++ ⟨.post (opaAddress s.pep) (opaInput (s.request.sent t)), reply⟩ :: (u ++ v)).any
        opaAllows = true ↔ _ := any_opaAllows ha hr hw
    simp only [Except.ok.injEq, exists_eq_left'] at ho
    rw [hd.ok_iff, sent_action, ← ho]
    have hc : ∀ e, cedarPermits e = true → e.1.stage = .resource := fun _ ↦ cedarPermits_stage
    constructor
    · rintro ⟨ha', hp⟩
      refine ⟨ha.bound, any_suspends ha hw, ha', fun hg ↦ ?_⟩
      rw [List.any_append, List.any_cons, List.any_append, hp hg]
      simp
    · intro h
      refine ⟨h.allowed, fun hg ↦ ?_⟩
      have hp := h.permitted hg
      rw [List.any_append, List.any_cons, List.any_append, any_of_within hc ha.within (by decide),
        any_of_within hc hu (by decide)] at hp
      simpa [cedarPermits] using hp

/-- An admitted request that can be written as JSON is posted once. -/
theorem Enforced.asked {out : Except PyExn Unit} (h : Enforced rt s t out)
    (hb : IpBound s.request) (hs : t.any (suspends s.request.agentId) = false)
    (hj : (opaInput (s.request.sent t)).isJson = true) : calls .policy t = 1 := by
  cases h with
  | unbound hn => exact absurd hb hn
  | illTyped e hip =>
    obtain ⟨ip, hi, -⟩ := hb
    cases hip.symm.trans hi
  | suspended _ _ hs' => cases hs.symm.trans hs'
  | unserializable _ hj' => cases hj.symm.trans hj'
  | unevaluated ha _ _ _ _ hu => exact calls_policy ha (hu.mono (by decide))
  | evaluated ha _ _ _ _ hu hd => exact calls_policy ha (within_act hu hd.within)

/-- The resource policy is asked once about an allowed action that it governs. -/
theorem Enforced.resource_calls {out : Except PyExn Unit} (h : Enforced rt s t out)
    (ho : t.any opaAllows = true) (hg : CedarGoverned s.request.action) :
    calls .resource t = 1 := by
  cases h with
  | unbound | illTyped => cases ho
  | suspended _ hw =>
    cases ho.symm.trans (any_of_within (fun _ ↦ opaAllows_stage) hw (by decide))
  | unserializable ha =>
    cases ho.symm.trans (any_of_within (fun _ ↦ opaAllows_stage) ha.within (by decide))
  | unevaluated ha _ reply e hr hu =>
    obtain ⟨d, hd, -⟩ := (any_opaAllows ha hr (hu.mono (by decide))).mp ho
    cases hd
  | @evaluated t u v ha hj reply decision hr hu out hd =>
    obtain ⟨d, hx, ha'⟩ := (any_opaAllows ha hr (within_act hu hd.within)).mp ho
    cases hx
    rw [calls_append, calls_of_within ha.within (by decide), calls, List.countP_cons]
    show 0 + (calls .resource (u ++ v) + 0) = 1
    rw [calls_append, calls_of_within hu (by decide), hd.resource_calls ha' (by rwa [sent_action])]

/-- A request that fails the address or the suspension check gets no further. -/
theorem Enforced.stopped {out : Except PyExn Unit} (h : Enforced rt s t out)
    (hn : ¬ IpBound s.request ∨ t.any (suspends s.request.agentId) = true) :
    Within [.connection, .suspension] t := by
  have contra {u : List Event} {p : Prop} (ha : Admitted s u)
      (hs : t.any (suspends s.request.agentId) = false) : p := by
    rcases hn with hn | hn
    · exact absurd ha.bound hn
    · cases hs.symm.trans hn
  cases h with
  | unbound | illTyped => exact within_nil _
  | suspended _ hw => exact hw
  | unserializable ha => exact contra ha ha.unsuspended
  | unevaluated ha _ _ _ _ hu => exact contra ha (any_suspends ha (hu.mono (by decide)))
  | evaluated ha _ _ _ _ hu hd => exact contra ha (any_suspends ha (within_act hu hd.within))

/-- Later calls do not look up the agent again. -/
theorem CheckedOnce.append {agentId : String} {u : List Event} {stages : List Stage}
    (h : CheckedOnce agentId t) (hu : Within stages u) (hs : .suspension ∉ stages) :
    CheckedOnce agentId (t ++ u) := by
  obtain ⟨reply, hr⟩ := h
  have hn : u.filter (·.1.stage = .suspension) = [] := by
    rw [List.filter_eq_nil_iff]
    intro e he hd
    rw [decide_eq_true_eq] at hd
    exact hs (hd ▸ hu e he)
  exact ⟨reply, by rw [List.filter_append, hr, hn, List.append_nil]⟩

/-- A client that is there is the one that the check works with. -/
theorem getRedis_client {b : Bool} {s' : State} {u : List Event}
    (h : Py.Run getRedis s t (.ok b) s') (hc : HasClient s (t ++ u)) : b = true := by
  simp only [getRedis, Py.run_read_bind, ask] at h
  split at h
  · rw [Py.run_pure] at h
    cases h.2.1
    rfl
  · next hn =>
    simp only [Py.run_ask_bind] at h
    obtain ⟨r, t', rfl, h⟩ := h
    have hr := hc.resolve_left hn
    rw [List.cons_append, List.head?_cons] at hr
    cases hr
    simp only [Py.run_update_bind, Py.run_pure] at h
    cases h.2.1
    rfl

/-- With a client the suspension check looks up the agent once. -/
theorem checkSuspension_checked {out : Except PyExn Unit} {s' : State} {u : List Event}
    (h : Py.Run checkSuspension s t out s') (hc : HasClient s (t ++ u)) :
    CheckedOnce s.request.agentId t := by
  simp only [checkSuspension, Py.run_read_bind] at h
  rw [Py.run_bind] at h
  rcases h with ⟨e, h, -⟩ | ⟨b, t₁, t₂, s₁, rfl, h₁, h₂⟩
  · obtain ⟨-, -, -, b, hb⟩ := getRedis_run h
    cases hb
  have hw := (getRedis_run h₁).1
  rw [List.append_assoc] at hc
  rw [if_pos (getRedis_client h₁ hc)] at h₂
  have ht : ∃ reply, t₂ =
      [⟨.redis (.sismember "identities:suspended" s.request.agentId), reply⟩] := by
    rw [Py.run_handle] at h₂
    simp only [sismember, run_service_bind, cast_eq] at h₂
    rcases h₂ with ⟨a, ⟨b, t, rfl, hb⟩ | ⟨cls, rfl, -⟩, -⟩ |
      ⟨e, t, t', s₂, rfl, ⟨b, t, rfl, hb⟩ | ⟨cls, rfl, he, rfl⟩, h₃⟩
    · split at hb
      · cases (Py.run_raise.mp hb).2.1
      · rw [(Py.run_pure.mp hb).1]
        exact ⟨_, rfl⟩
    · exact ⟨_, rfl⟩
    · split at hb
      · obtain ⟨rfl, he, rfl⟩ := Py.run_raise.mp hb
        cases he
        rw [(Py.run_raise.mp h₃).1]
        exact ⟨_, rfl⟩
      · cases (Py.run_pure.mp hb).2.1
    · cases he
      rw [(Py.run_pure.mp h₃).1]
      exact ⟨_, rfl⟩
  obtain ⟨reply, rfl⟩ := ht
  have hn : t₁.filter (·.1.stage = .suspension) = [] := by
    rw [List.filter_eq_nil_iff]
    intro e he hd
    rw [decide_eq_true_eq] at hd
    exact absurd (hd ▸ hw e he) (by decide)
  exact ⟨reply, by rw [List.filter_append, hn]; rfl⟩

/-- An enforcement of an address-bound request checks the suspension first, and only once. -/
theorem enforce_checked {out : Except PyExn Unit} {s' : State} {u : List Event}
    (h : Py.Run (enforce rt) s t out s') (hb : IpBound s.request) (hc : HasClient s (t ++ u)) :
    CheckedOnce s.request.agentId t := by
  rw [enforce, Py.run_bind] at h
  rcases h with ⟨e, h, rfl⟩ | ⟨_, t₁, t, s₁, rfl, h₁, h⟩
  · obtain ⟨-, -, ⟨-, he⟩ | ⟨hn, -⟩⟩ := checkIpBinding_run h
    · cases he
    · exact absurd hb hn
  obtain ⟨rfl, rfl, -⟩ := checkIpBinding_run h₁
  rw [List.nil_append] at hc ⊢
  rw [Py.run_bind] at h
  rcases h with ⟨e, h, rfl⟩ | ⟨_, t₁, t, s₂, rfl, h₁, h⟩
  · exact checkSuspension_checked h hc
  rw [List.append_assoc] at hc
  refine (checkSuspension_checked h₁ hc).append
    (show Within [.connection, .clock, .counter, .policy, .resource, .approval] t from ?_)
    (by decide)
  -- what follows the check makes calls of other stages
  rw [Py.run_bind] at h
  rcases h with ⟨e, h, rfl⟩ | ⟨_, t₂, t, s₃, rfl, h₂, h⟩
  · cases (injectRateLimitCount_run h).1
  obtain ⟨-, -, -, v, w, rfl, hv, hw⟩ := injectRateLimitCount_run h₂
  have hcount : Within [.connection, .clock, .counter] (v ++ w) := by
    rcases hw with rfl | ⟨count, hw⟩
    · rw [List.append_nil]
      exact hv.mono (by decide)
    · exact (within_append ..).mpr ⟨hv.mono (by decide), hw.within.mono (by decide)⟩
  refine (within_append ..).mpr ⟨hcount.mono (by decide), ?_⟩
  rw [Py.run_bind] at h
  rcases h with ⟨e, h, rfl⟩ | ⟨decision, t₃, t₄, s₄, rfl, h₃, h₄⟩
  · obtain ⟨-, ⟨-, rfl, -⟩ | ⟨-, reply, x, rfl, hx, -⟩⟩ := evaluate_run h
    · exact within_nil _
    · exact (within_cons ..).mpr ⟨by simp [Call.stage], hx.mono (by decide)⟩
  · have hact := (actOn_run h₄).within
    obtain ⟨-, ⟨-, rfl, -⟩ | ⟨-, reply, x, rfl, hx, -⟩⟩ := evaluate_run h₃
    · exact hact.mono (by decide)
    · exact (within_append ..).mpr ⟨(within_cons ..).mpr ⟨by simp [Call.stage],
        hx.mono (by decide)⟩, hact.mono (by decide)⟩

/-- The runs of `execute_tool`: an enforcement, and the tool after one that returns. -/
theorem executeTool_run {out : Except PyExn Value} {s' : State}
    (h : Py.Run (executeTool rt) s t out s') :
    (∃ e s₁, Py.Run (enforce rt) s t (.error e) s₁ ∧ out = .error e) ∨
      ∃ u reply s₁, t = u ++ [⟨.tool, reply⟩] ∧ Py.Run (enforce rt) s u (.ok ()) s₁ := by
  rw [executeTool, Py.run_bind] at h
  rcases h with ⟨e, h, rfl⟩ | ⟨_, t₁, t₂, s₁, rfl, h₁, h₂⟩
  · exact .inl ⟨e, _, h, rfl⟩
  · rw [tool, run_service] at h₂
    obtain ⟨reply, rfl, -, -⟩ := h₂
    exact .inr ⟨t₁, _, s₁, rfl, h₁⟩

/-- Complete mediation, in every run of `execute_tool`. -/
theorem executeTool_mediated {out : Except PyExn Value} {s' : State}
    (h : Py.Run (executeTool rt) s t out s') : Mediated s t out := by
  rcases executeTool_run h with ⟨e, s₁, hr, rfl⟩ | ⟨u, reply, s₁, rfl, hr⟩
  · have he := enforce_run hr
    have hn : ¬ Cleared s.request t := fun hc ↦ by cases he.ok_iff.mpr hc
    have hz : calls .tool t = 0 := calls_of_within he.within (by decide)
    refine ⟨?_, fun _ ↦ ⟨hz, e, rfl⟩, fun hb hc ↦ ?_, he.asked, he.resource_calls, fun hs ↦ ?_⟩
    · rw [hz]
      exact ⟨nofun, fun hc ↦ absurd hc hn⟩
    · rw [← List.append_nil t] at hc
      exact enforce_checked hr hb hc
    · have hw := he.stopped hs
      exact ⟨calls_of_within hw (by decide), calls_of_within hw (by decide),
        calls_of_within hw (by decide), calls_of_within hw (by decide)⟩
  · have he := enforce_run hr
    have hc := he.ok_iff.mp rfl
    have hw : Within [.tool] [⟨.tool, reply⟩] := by simp [Call.stage]
    have hs : (u ++ [⟨.tool, reply⟩] : List Event).any (suspends s.request.agentId) =
        u.any (suspends s.request.agentId) := by
      rw [List.any_append, any_of_within (fun _ ↦ suspends_stage) hw (by decide), Bool.or_false]
    have ho : (u ++ [⟨.tool, reply⟩] : List Event).any opaAllows = u.any opaAllows := by
      rw [List.any_append, any_of_within (fun _ ↦ opaAllows_stage) hw (by decide), Bool.or_false]
    have hp : (u ++ [⟨.tool, reply⟩] : List Event).any cedarPermits = u.any cedarPermits := by
      rw [List.any_append, any_of_within (fun _ ↦ cedarPermits_stage) hw (by decide),
        Bool.or_false]
    have ht : calls .tool (u ++ [⟨.tool, reply⟩]) = 1 := by
      rw [calls_append, calls_of_within he.within (by decide)]
      simp [calls, Call.stage]
    have hl : Cleared s.request (u ++ [⟨.tool, reply⟩]) :=
      ⟨hc.bound, hs.trans hc.unsuspended, ho.trans hc.allowed,
        fun hg ↦ hp.trans (hc.permitted hg)⟩
    have hq : s.request.sent (u ++ [⟨.tool, reply⟩]) = s.request.sent u := by
      rw [ActionRequest.sent, ActionRequest.sent]
      have hi := injected_append (t := []) (u := u) (within_nil _) hw (by decide)
      rw [List.nil_append] at hi
      rw [hi]
    refine ⟨⟨fun _ ↦ hl, fun _ ↦ ht⟩, fun hn ↦ absurd hl hn,
      fun hb hc' ↦ (enforce_checked hr hb hc').append hw (by decide), fun hb hs' hj ↦ ?_,
      fun ho' hg ↦ ?_, fun hn ↦ ?_⟩
    · rw [hs] at hs'
      rw [hq] at hj
      rw [calls_append, he.asked hb hs' hj]
      simp [calls, Call.stage]
    · rw [ho] at ho'
      rw [calls_append, he.resource_calls ho' hg]
      simp [calls, Call.stage]
    · rcases hn with hn | hn
      · exact absurd hc.bound hn
      · cases hn.symm.trans (hs.trans hc.unsuspended)

end

/-! ### Writing a record -/

/-- No counter is stored under the key of an approval. -/
theorem rateKey_ne_approval (a : String) (bucket : Nat) (requestId : String) :
    rateKey a bucket ≠ "approval:" ++ requestId := by
  intro h
  change "rate:" ++ a ++ ":" ++ toString bucket = _ at h
  have hl := congrArg String.toList h
  simp [String.toList_append] at hl

section
variable {rt : Runtime} {t : List Event} {requestId : String} {c : Redis.Command}
  {reply : Except String c.Reply}

/-- The commands of a counting are on a key of the counter. -/
theorem Counting.key_eq {agentId : String} {count : Option Int} (h : Counting agentId t count)
    (hm : (⟨.redis c, reply⟩ : Event) ∈ t) :
    ∃ now, c.key = rateKey agentId (minuteBucket now) := by
  cases h with
  | failed now | next now =>
    refine ⟨now, ?_⟩
    simp only [List.mem_cons, List.not_mem_nil, or_false] at hm
    rcases hm with hm | hm <;> cases hm
    rfl
  | first now | unexpired now =>
    refine ⟨now, ?_⟩
    simp only [List.mem_cons, List.not_mem_nil, or_false] at hm
    rcases hm with hm | hm | hm <;> cases hm <;> rfl

/-- A queueing that writes a record was given its identifier. -/
theorem Queueing.uuid4_of_mem {request : ActionRequest} {decision : PolicyDecision}
    {out : Except PyExn String} (h : Queueing rt request decision t out)
    (hm : (⟨.redis c, reply⟩ : Event) ∈ t) (hk : c.key = "approval:" ++ requestId) :
    (⟨.uuid4, requestId⟩ : Event) ∈ t := by
  cases h with
  | clientFailed | ttlFailed => simp at hm
  | written id =>
    simp only [List.mem_cons, List.not_mem_nil, or_false] at hm
    rcases hm with hm | hm | hm | hm | hm <;> cases hm
    obtain rfl : id = requestId := (String.append_right_inj _).mp hk
    exact List.mem_cons_self

/-- An enforcement that writes a record of an approval was given its identifier. -/
theorem Enforced.uuid4_of_rewrites {s : State} {out : Except PyExn Unit} (h : Enforced rt s t out)
    (hm : (⟨.redis c, reply⟩ : Event) ∈ t) (hr : c.rewrites = true)
    (hk : c.key = "approval:" ++ requestId) : (⟨.uuid4, requestId⟩ : Event) ∈ t := by
  have absent {stages : List Stage} {u : List Event} (hw : Within stages u)
      (hc : Stage.counter ∉ stages) (ha : Stage.approval ∉ stages) :
      (⟨.redis c, reply⟩ : Event) ∉ u := by
    intro hm
    have hs := hw _ hm
    cases c with
    | sismember => cases hr
    | incr | expire => exact hc hs
    | _ => exact ha hs
  have admitted {u : List Event} (ha : Admitted s u) : (⟨.redis c, reply⟩ : Event) ∉ u := by
    obtain ⟨x, y, rfl, hx, hy⟩ := ha.counted
    intro hm
    rcases hy with rfl | ⟨count, hy⟩
    · rw [List.append_nil] at hm
      exact absent hx (by decide) (by decide) hm
    · obtain ⟨now, hn⟩ := hy.key_eq
        ((List.mem_append.mp hm).resolve_left (absent hx (by decide) (by decide)))
      exact rateKey_ne_approval _ _ _ (hn.symm.trans hk)
  cases h with
  | unbound | illTyped => cases hm
  | suspended _ hw => exact absurd hm (absent hw (by decide) (by decide))
  | unserializable ha => exact absurd hm (admitted ha)
  | unevaluated ha _ _ _ _ hu =>
    rcases List.mem_append.mp hm with hm | hm
    · exact absurd hm (admitted ha)
    · cases hm with
      | tail _ hm => exact absurd hm (absent hu (by decide) (by decide))
  | @evaluated t u v ha _ _ _ _ hu _ hd =>
    have hv : (⟨.redis c, reply⟩ : Event) ∈ v := by
      rcases List.mem_append.mp hm with hm | hm
      · exact absurd hm (admitted ha)
      · cases hm with
        | tail _ hm =>
          exact (List.mem_append.mp hm).resolve_left (absent hu (by decide) (by decide))
    refine List.mem_append_right _ (List.mem_cons_of_mem _ (List.mem_append_right _ ?_))
    cases hd with
    | deny | ungoverned => cases hv
    | resource | resourceFailed => cases List.mem_singleton.mp hv
    | queued _ hq | queueFailed _ hq => exact hq.uuid4_of_mem hv hk

end

/-! ### A run -/

/-- An interpreter that prints ASCII only. -/
def asciiRuntime : Runtime := ⟨fun _ ↦ false, fun _ ↦ ""⟩

/-- Services of which the policy engine and the clock answer as given, Redis answers a fresh
start, and the others agree. -/
def services (reply : HttpReply) (now : Nat) : List Event → (c : Call) → c.Reply
  | _, .connect => .ok ()
  | _, .redis (.get _) => .ok none
  | _, .redis (.setex ..) => .ok ()
  | _, .redis (.incr _) => .ok 1
  | _, .redis (.expire ..) => .ok true
  | _, .redis (.sadd ..) => .ok 1
  | _, .redis (.srem ..) => .ok 0
  | _, .redis (.sismember ..) => .ok false
  | _, .redis (.smembers _) => .ok []
  | _, .redis (.set ..) => .ok ()
  | _, .redis (.del _) => .ok 0
  | _, .clock => now
  | _, .post .. => reply
  | _, .cedar _ => .ok ⟨true, "cedar-allow"⟩
  | _, .uuid4 => "00000000-0000-4000-8000-000000000000"
  | _, .approvalClient => .ok ()
  | _, .approvalTtl => .ok 14400
  | _, .tool => .ok .null

/-- A success of the policy engine whose result has the given effect. -/
def decided (effect : String) : HttpReply := .response 200 (.ok (.obj [("result", .obj [
  ("effect", .str effect),
  ("reason", .str "Action denied by policy"),
  ("policy_ref", .str "nhi.agent.authorization"),
  ("policy_version", .str "2.0.0"),
  ("evaluated_at", .str "2024-02-29T00:00:00+00:00")])]))

/-- A request for an object, without claims. -/
def getObject : ActionRequest where
  agentId := "agent-infra-001"
  agentType := "InfraAgent"
  tokenClaims := []
  action := "s3:GetObject"
  resourceArn := "arn:aws:s3:::bucket/key"
  taskId := "task-001"
  environment := "staging"
  sourceIp := "10.0.1.10"
  resourceTags := []
  context := []

/-- An enforcement point without a Redis client, with that request. -/
def start : State := ⟨⟨"http://localhost:8181", false⟩, getObject⟩

/-- The tool is called once where the services answer ALLOW. -/
theorem executeTool_mediated_allowed :
    let run := Py.exec (services (decided "ALLOW") 0) (executeTool asciiRuntime) start
    calls .tool run.1 = 1 ∧ Mediated start run.1 run.2.1 :=
  ⟨by decide, executeTool_mediated (Py.run_exec _ _ start)⟩

end NhiSentinel.Pep
