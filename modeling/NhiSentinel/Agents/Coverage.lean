import NhiSentinel.Agents.Trail
import NhiSentinel.Audit.Producer

/-!
# Audit coverage

Which runs leave an event, and what a run leaves that has a token and a valid request: its
decision first, the handler after an enforcement that returned, and the result last.
-/

namespace NhiSentinel.Agents
open NhiSentinel.Base NhiSentinel.Pep NhiSentinel.Audit

/-! ### Validation -/

private theorem mapM_ne_none_iff {α β : Type} {f : α → Option β} {xs : List α} :
    xs.mapM f ≠ none ↔ ∀ x ∈ xs, f x ≠ none := by
  induction xs with
  | nil => simp
  | cons x xs ih =>
    rw [List.forall_mem_cons, ← ih, List.mapM_cons]
    cases f x <;> cases xs.mapM f <;> simp

private theorem validateStr_ne_none_iff {v : Value} :
    validateStr v ≠ none ↔ ∃ text, v = .str text := by
  cases v <;> simp [validateStr]

/-- With a token, a request is valid exactly when the claims are a dictionary and the tags are
texts. -/
theorem actionRequest?_ne_none_iff {agent : BaseAgent} {spec : ToolSpec} {state : AgentState}
    {token : String} {claims : Value} :
    actionRequest? agent spec (state.withToken token claims) ≠ none ↔
      (∃ kvs, claims = .obj kvs) ∧ ∀ tag ∈ state.resourceTags, ∃ text, tag.2 = .str text := by
  have hc : (state.withToken token claims).context.lookup "_token_claims" = some claims := by
    rw [AgentState.withToken, AgentState.setContext, AgentState.setContext]
    exact (Value.lookup_setMember_ne _ _ (by decide)).trans (Value.lookup_setMember_self _ _ _)
  have ht : validateTags state.resourceTags ≠ none ↔
      ∀ tag ∈ state.resourceTags, ∃ text, tag.2 = .str text := by
    rw [validateTags, mapM_ne_none_iff]
    simp only [ne_eq, Option.map_eq_none_iff]
    exact forall₂_congr fun _ _ ↦ validateStr_ne_none_iff
  rw [actionRequest?, hc, ← ht]
  cases claims with
  | obj kvs =>
    have hs : (state.withToken token (.obj kvs)).resourceTags = state.resourceTags := rfl
    simp only [hs]
    cases validateTags state.resourceTags <;> simp
  | _ => simp

/-- A result is valid unless it is a dictionary with a key that is no text. -/
theorem validate?_ne_none_iff {result : ToolResult} :
    result.validate? ≠ none ↔
      ∀ entries, result = .dict entries → ∀ kv ∈ entries, ∃ text, kv.1 = .str text := by
  cases result with
  | dict entries =>
    simp only [ToolResult.validate?, ne_eq, Option.map_eq_none_iff, ToolResult.dict.injEq,
      forall_eq']
    rw [← ne_eq, mapM_ne_none_iff]
    simp only [ne_eq, Option.map_eq_none_iff]
    exact forall₂_congr fun _ _ ↦ validateStr_ne_none_iff
  | other v => simp [ToolResult.validate?]

/-! ### Coverage -/

section
variable {rt : Runtime} {r : AgentRun rt}

/-- The token is fetched and introspected, and if the tool is in the registry, a request can be
made of the claims and the tags. -/
def AgentRun.Prepared (r : AgentRun rt) : Prop :=
  ∃ token claims, (⟨.introspect token, .ok claims⟩ : AgentEvent) ∈ r.trace ∧
    ∀ spec, r.agent.registry.get r.args.toolKey = .ok spec →
      (∃ kvs, claims = .obj kvs) ∧ ∀ tag ∈ r.args.resourceTags, ∃ text, tag.2 = .str text

/-- The event is about the attempted action. -/
structure AgentRun.About (r : AgentRun rt) (event : AuditEvent) : Prop where
  agentId : event.agentId = r.agent.agentId
  taskId : event.taskId = r.args.taskId
  action : event.action = r.args.toolKey
  resourceArn : event.resourceArn = r.args.resourceArn

private theorem mem_introspected {t : List AgentEvent} {token : String} {claims : Value} :
    (token, claims) ∈ introspected t ↔ (⟨.introspect token, .ok claims⟩ : AgentEvent) ∈ t := by
  rw [introspected, List.mem_filterMap]
  constructor
  · rintro ⟨e, he, hx⟩
    split at hx
    · cases hx
      exact he
    · cases hx
  · intro h
    exact ⟨_, h, rfl⟩

/-- A prepared run comes to a decision on its action. -/
theorem AgentRun.Prepared.decided (h : r.Prepared) :
    ∃ before after checked eventId timestamp p, r.trace =
        before ++ ⟨.publish (decisionEvent r.agent checked eventId timestamp), ()⟩ :: after ∧
        Quiet before ∧ r.About (decisionEvent r.agent checked eventId timestamp) ∧
        r.Judged checked.decision checked.error ∧ checked.toolKey = r.args.toolKey ∧
        checked.result = .other .null ∧ Followed rt r.agent
          ⟨p, checked.setContext "_decision_event_id" (.str eventId)⟩ after r.outcome := by
  obtain ⟨token, claims, hm, hv⟩ := h
  rw [← mem_introspected] at hm
  cases r.course with
  | unfetched hi => cases hi ▸ hm
  | invalid token' claims' hi spec hg hr =>
    cases List.mem_singleton.mp (hi ▸ hm)
    exact absurd hr (actionRequest?_ne_none_iff.mpr (hv spec hg))
  | audited _ _ before after checked eventId timestamp ht _ hq _ ha hk hs hx hr hj p hf =>
    exact ⟨before, after, checked, eventId, timestamp, p, ht, hq, ⟨rfl, hs, ha, hx⟩, hj, hk, hr,
      hf⟩

private theorem prepared_of_published (h : published r.trace ≠ []) : r.Prepared := by
  cases r.course with
  | unfetched _ hq | invalid _ _ _ _ _ _ hq => exact absurd hq.1 h
  | audited token claims before after checked eventId timestamp ht hi _ hv =>
    refine ⟨token, claims, ?_, fun spec hg ↦ actionRequest?_ne_none_iff.mp (hv spec hg)⟩
    rw [ht]
    exact List.mem_append_left _ (mem_introspected.mp (by simp [hi]))

/-- A run leaves an event about its action exactly when it has a token and a valid request. -/
theorem published_iff_prepared (r : AgentRun rt) :
    (∃ event ∈ published r.trace, r.About event) ↔ r.Prepared := by
  constructor
  · intro ⟨event, he, _⟩
    exact prepared_of_published (List.ne_nil_of_mem he)
  · intro h
    obtain ⟨before, after, checked, eventId, timestamp, _, ht, _, ha, _⟩ := h.decided
    refine ⟨decisionEvent r.agent checked eventId timestamp, ?_, ha⟩
    rw [ht, published_append]
    exact List.mem_append_right _ List.mem_cons_self

/-- The run whose token is refused. -/
def tokenlessRun : AgentRun asciiRuntime :=
  .exec asciiRuntime
    (fun
      | .getToken .. => .error "TokenAcquisitionError"
      | c => answering .requestError (.error "") c)
    readingAgent ⟨"http://localhost:8181", false⟩ objectArgs

/-- It ends without an event. -/
theorem tokenlessRun_unpublished :
    tokenlessRun.outcome = .error (.other "TokenAcquisitionError") ∧
      ¬ ∃ event ∈ published tokenlessRun.trace, tokenlessRun.About event := by
  refine ⟨rfl, fun ⟨event, he, _⟩ ↦ ?_⟩
  have hp : published tokenlessRun.trace = [] := rfl
  exact absurd (hp ▸ he) List.not_mem_nil

/-! ### Order -/

namespace AgentRun

/-- There is a handler for the tool, and it was called and returned. -/
def Returned (r : AgentRun rt) : Prop :=
  r.args.toolKey ∈ r.agent.toolHandlers ∧
    ∃ call ∈ handled r.trace, ∃ result, call.outcome = .ok result

/-- The calls before and after the publication of a decision are as they should be. -/
structure LawfulAt (r : AgentRun rt) (before : List AgentEvent) (decision : AuditEvent)
    (after : List AgentEvent) : Prop where
  split : r.trace = before ++ ⟨.publish decision, ()⟩ :: after
  first : Quiet before
  once : (handled after).length ≤ 1
  cleared : ∀ call ∈ handled after, call.toolKey = r.args.toolKey ∧ enforcement after = [] ∧
    r.Enforced (.ok ()) ∧ ∃ request spec, r.request? = some request ∧
      r.agent.registry.get r.args.toolKey = .ok spec ∧ request.action = spec.action
  executed : decision.decision = "ALLOW" → ∃ calls result,
    after = calls ++ [⟨.publish result, ()⟩] ∧ published calls = [] ∧
      (r.Returned → result.decision = "EXECUTED") ∧
      (¬ r.Returned → result.decision = "EXECUTION_FAILED")
  ended : decision.decision ≠ "ALLOW" → published after = []

/-- One decision is published before anything is executed, a handler is called at most once and
only after an enforcement of the tool's request returned, and the result of an allowed
decision follows. -/
def Lawful (r : AgentRun rt) : Prop := ∃ before decision after, r.LawfulAt before decision after

/-- What can go wrong does not: an exception of a handler has a text, a dictionary that it leaves
as the result has texts as keys, and no exception of an enforcement is named like the decision
to allow where there is a handler. -/
structure Clean (r : AgentRun rt) : Prop where
  texts : ∀ call ∈ handled r.trace, call.outcome ≠ .error ""
  keys : ∀ call ∈ handled r.trace, ∀ entries, call.result = .dict entries →
    ∀ kv ∈ entries, ∃ text, kv.1 = .str text
  named : r.args.toolKey ∈ r.agent.toolHandlers → ¬ r.Enforced (.error (.other "ALLOW"))

end AgentRun

private theorem split_unique {t u t' u' : List AgentEvent} {d d' : AuditEvent} (ht : Quiet t)
    (ht' : Quiet t') (h : t ++ ⟨.publish d, ()⟩ :: u = t' ++ ⟨.publish d', ()⟩ :: u') :
    t = t' ∧ d = d' ∧ u = u' := by
  rcases List.append_eq_append_iff.mp h with ⟨v, rfl, hv⟩ | ⟨v, rfl, hv⟩
  · cases v with
    | nil =>
      cases hv
      exact ⟨(List.append_nil t).symm, rfl, rfl⟩
    | cons e v =>
      cases hv
      have hp := ht'.1
      rw [published_append] at hp
      cases (List.append_eq_nil_iff.mp hp).2
  · cases v with
    | nil =>
      cases hv
      exact ⟨List.append_nil t', rfl, rfl⟩
    | cons e v =>
      cases hv
      have hp := ht.1
      rw [published_append] at hp
      cases (List.append_eq_nil_iff.mp hp).2

private theorem lawful_iff_at {before after : List AgentEvent} {decision : AuditEvent}
    (ht : r.trace = before ++ ⟨.publish decision, ()⟩ :: after) (hq : Quiet before) :
    r.Lawful ↔ r.LawfulAt before decision after := by
  constructor
  · intro ⟨before', decision', after', h⟩
    obtain ⟨rfl, rfl, rfl⟩ := split_unique hq h.first (ht.symm.trans h.split)
    exact h
  · intro h
    exact ⟨before, decision, after, h⟩

private theorem executed_of_blank {agent : BaseAgent} {state : AgentState}
    {result : Option (List (String × Value))} {eventId : String} {timestamp : Nat}
    (h : isBlank state.error = true) :
    (resultEvent rt agent state result eventId timestamp).decision = "EXECUTED" :=
  if_pos h

private theorem failed_of_not_blank {agent : BaseAgent} {state : AgentState}
    {result : Option (List (String × Value))} {eventId : String} {timestamp : Nat}
    (h : isBlank state.error = false) :
    (resultEvent rt agent state result eventId timestamp).decision = "EXECUTION_FAILED" :=
  if_neg (h ▸ Bool.false_ne_true)

/-- Where no handler is called, only the name of an exception can go wrong. -/
theorem clean_of_unhandled (hz : handled r.trace = [])
    (hn : r.args.toolKey ∈ r.agent.toolHandlers → ¬ r.Enforced (.error (.other "ALLOW"))) :
    r.Clean := by
  refine ⟨fun call hc ↦ ?_, fun call hc ↦ ?_, hn⟩
  · exact absurd (hz ▸ hc) List.not_mem_nil
  · exact absurd (hz ▸ hc) List.not_mem_nil

private theorem lawfulAt_missing {before : List AgentEvent} {decision : AuditEvent}
    {state : AgentState} {u : List AgentEvent} {out : Except PyExn Unit}
    (ht : r.trace = before ++ ⟨.publish decision, ()⟩ :: u) (hq : Quiet before)
    (hd : decision.decision = "ALLOW") (hn : r.args.toolKey ∉ r.agent.toolHandlers)
    (hr : state.result = .other .null) (he : isBlank state.error = false)
    (hu : ResultAudited rt r.agent state u out) : r.LawfulAt before decision u := by
  cases hu with
  | invalid hv =>
    rw [hr] at hv
    cases hv
  | published result hv eventId timestamp =>
    refine ⟨ht, hq, Nat.zero_le 1, fun _ hc ↦ absurd hc List.not_mem_nil, fun _ ↦ ?_,
      fun h ↦ absurd hd h⟩
    refine ⟨[⟨.uuid4, eventId⟩, ⟨.clock, timestamp⟩], _, rfl, rfl, fun h ↦ absurd h.1 hn,
      fun _ ↦ ?_⟩
    exact failed_of_not_blank he

/-- The calls after an allowed decision, for a handler that is called. -/
theorem lawfulAt_called_iff {before : List AgentEvent} {decision : AuditEvent}
    {call : HandlerCall} {state : AgentState} {u : List AgentEvent} {out : Except PyExn Unit}
    (ht : r.trace = before ++ ⟨.publish decision, ()⟩ :: call.event :: u) (hq : Quiet before)
    (hd : decision.decision = "ALLOW") (hm : r.args.toolKey ∈ r.agent.toolHandlers)
    (hk : call.toolKey = r.args.toolKey) (hr : state.result = call.result)
    (he : state.error = call.error) (hu : ResultAudited rt r.agent state u out)
    (hw : r.Enforced (.ok ()) → call.left.error = none) :
    r.LawfulAt before decision (call.event :: u) ↔
      r.Enforced (.ok ()) ∧ call.result.validate? ≠ none ∧ call.outcome ≠ .error "" := by
  have hh : handled (call.event :: u) = [call] := by
    cases hu <;> rfl
  have hc : handled r.trace = [call] := by
    rw [ht, handled_append, hq.2, ← hh]
    rfl
  have hret : r.Returned ↔ ∃ result, call.outcome = .ok result := by
    rw [AgentRun.Returned, hc]
    simp [hm]
  constructor
  · intro h
    have hx := (h.cleared call (by rw [hh]; exact List.mem_singleton_self _)).2.2.1
    obtain ⟨calls, event, hs, hp, -, hf⟩ := h.executed hd
    have hpub : published u = [event] := by
      have hu' := congrArg published hs
      rw [published_append, hp] at hu'
      exact hu'
    refine ⟨hx, ?_⟩
    cases hu with
    | invalid hv => cases hpub
    | published result hv eventId timestamp =>
      cases hpub
      refine ⟨fun hn ↦ ?_, fun ho ↦ ?_⟩
      · rw [hr, hn] at hv
        cases hv
      · have hb : isBlank state.error = true := by
          rw [he, HandlerCall.error, ho]
          rfl
        have hn : ¬ r.Returned := by
          rw [hret, ho]
          nofun
        exact absurd ((executed_of_blank hb).symm.trans (hf hn)) (by decide)
  · intro ⟨hx, hv, ho⟩
    cases hu with
    | invalid hn => exact absurd (hr ▸ hn) hv
    | published result _ eventId timestamp =>
      refine ⟨ht, hq, by rw [hh]; exact Nat.le_refl 1, fun c hm' ↦ ?_, fun _ ↦ ?_,
        fun h ↦ absurd hd h⟩
      · rw [hh] at hm'
        cases List.mem_singleton.mp hm'
        have hx' := hx
        obtain ⟨request, _, hreq, -⟩ := hx
        exact ⟨hk, rfl, hx', request, (AgentRun.registered hreq).imp fun _ hs ↦ ⟨hreq, hs⟩⟩
      · refine ⟨[call.event, ⟨.uuid4, eventId⟩, ⟨.clock, timestamp⟩], _, rfl, rfl, fun h ↦ ?_,
          fun h ↦ ?_⟩
        · obtain ⟨value, hc⟩ := hret.mp h
          apply executed_of_blank
          rw [he, HandlerCall.error, hc]
          show isBlank call.left.error = true
          rw [hw hx]
          rfl
        · apply failed_of_not_blank
          rw [he, HandlerCall.error]
          cases hc : call.outcome with
          | ok value => exact absurd (hret.mpr ⟨value, hc⟩) h
          | error text =>
            rw [hc] at ho
            exact decide_eq_false fun ht ↦ ho (ht ▸ rfl)

/-- A prepared run whose handler does not write the error is lawful exactly when it is clean. -/
theorem lawful_iff_clean (h : r.Prepared)
    (hw : ∀ call ∈ handled r.trace, call.left.error = call.state.error) :
    r.Lawful ↔ r.Clean := by
  obtain ⟨before, after, checked, eventId, timestamp, p, ht, hq, -, hj, hk, hr, hf⟩ := h.decided
  have hh : handled r.trace = handled after := by
    rw [ht, handled_append, hq.2]
    rfl
  rw [lawful_iff_at ht hq]
  generalize r.outcome = outcome at hf
  cases hf with
  | blocked hb =>
    have hd : checked.decision ≠ some "ALLOW" := fun hd ↦
      hb ((routeAfterPolicy_eq_allowed_iff _).mpr hd)
    constructor
    · intro _
      exact clean_of_unhandled hh fun _ he ↦ hd (hj.of_error he)
    · intro _
      exact ⟨ht, hq, Nat.zero_le 1, fun _ hc ↦ absurd hc List.not_mem_nil,
        fun hd' ↦ absurd ((decision_eq_iff (by decide) (by decide)).mp hd') hd, fun _ ↦ rfl⟩
  | executed ha he hu =>
    have hd : checked.decision = some "ALLOW" := (routeAfterPolicy_eq_allowed_iff _).mp ha
    have hd' : (decisionEvent r.agent checked eventId timestamp).decision = "ALLOW" :=
      (decision_eq_iff (by decide) (by decide)).mpr hd
    rcases he.called with ⟨hn, rfl, hres, text, hne, herr⟩ | ⟨call, hm, hkey, hst, rfl, hres, herr⟩
    · have hn' : r.args.toolKey ∉ r.agent.toolHandlers := hk ▸ hn
      have hl := lawfulAt_missing ht hq hd' hn' (hres.trans hr) (by simp [herr, isBlank, hne]) hu
      have hz : handled r.trace = [] := by
        rw [hh]
        cases hu <;> rfl
      exact ⟨fun _ ↦ clean_of_unhandled hz fun hm ↦ absurd hm hn', fun _ ↦ hl⟩
    · have hz : handled r.trace = [call] := by
        rw [hh]
        cases hu <;> rfl
      have hm' : r.args.toolKey ∈ r.agent.toolHandlers := hk ▸ hm
      have hleft : r.Enforced (.ok ()) → call.left.error = none := by
        intro hx
        rw [hw call (hz ▸ List.mem_singleton_self _), hst]
        exact (hj.of_ok hx).2
      rw [List.singleton_append] at ht ⊢
      rw [lawfulAt_called_iff ht hq hd' hm' (hkey.trans hk) hres herr hu hleft]
      constructor
      · intro ⟨hx, hv, ho⟩
        refine ⟨?_, ?_, fun _ he ↦ ?_⟩
        · rw [hz]
          exact List.forall_mem_singleton.mpr ho
        · rw [hz]
          exact List.forall_mem_singleton.mpr (validate?_ne_none_iff.mp hv)
        · cases hx.unique he
      · intro hc
        have hcall : call ∈ handled r.trace := hz ▸ List.mem_singleton_self _
        refine ⟨?_, validate?_ne_none_iff.mpr (hc.keys call hcall), hc.texts call hcall⟩
        -- of the ways to the decision to allow, only the named exception is left besides
        generalize checked.decision = decision, checked.error = error at hj hd
        cases hj with
        | refused => exact absurd (Option.some.inj hd) (by decide)
        | returned hx => exact hx
        | raised e text hx =>
          have hname : e = .other "ALLOW" :=
            eq_other_of_exceptionName (Option.some.inj hd) (by decide) (by decide)
          exact absurd (hname ▸ hx) (hc.named hm')

/-- The events of runs that share a producer, each with the outcome of its send. -/
def sends (outcome : Nat → SendOutcome) (runs : List (AgentRun rt)) :
    List (AuditEvent × SendOutcome) :=
  (runs.flatMap fun r ↦ published r.trace).mapIdx fun n event ↦ (event, outcome n)

/-- Runs that share a producer are lawful, and what they publish passes the check of its chain,
exactly when all of them are clean. -/
theorem runs_lawful_iff (sha256 : String → String) (producer : AuditProducer)
    (runs : List (AgentRun rt)) (hp : ∀ r ∈ runs, r.Prepared)
    (hw : ∀ r ∈ runs, ∀ call ∈ handled r.trace, call.left.error = call.state.error)
    (outcome : Nat → SendOutcome) :
    ((∀ r ∈ runs, r.Lawful) ∧
        verifyChain sha256 (producer.published sha256 (sends outcome runs)) = true) ↔
      ∀ r ∈ runs, r.Clean := by
  rw [verifyChain_published, eq_self_iff_true, and_true]
  exact forall₂_congr fun r hr ↦ lawful_iff_clean (hp r hr) (hw r hr)

private theorem objectRun_prepared (decision : HttpReply) (outcome : Except String ToolResult) :
    (objectRun decision outcome).Prepared :=
  ⟨"token", .obj [], List.mem_cons_of_mem _ List.mem_cons_self,
    fun _ _ ↦ ⟨⟨[], rfl⟩, fun _ h ↦ absurd h List.not_mem_nil⟩⟩

/-- A run that is allowed. -/
theorem runs_lawful_iff_allowed :
    ((∀ r ∈ [allowedRun], r.Lawful) ∧ verifyChain id ((AuditProducer.new true).published id
        (sends (fun _ ↦ .acknowledged) [allowedRun])) = true) ↔
      ∀ r ∈ [allowedRun], r.Clean :=
  runs_lawful_iff id (.new true) [allowedRun]
    (List.forall_mem_singleton.mpr (objectRun_prepared _ _))
    (List.forall_mem_singleton.mpr (by decide +kernel)) fun _ ↦ .acknowledged

/-- The run of a handler that raises an exception without a text. -/
def silentRun : AgentRun asciiRuntime := objectRun (decided "ALLOW") (.error "")

/-- Its failure is recorded as an execution. -/
theorem silentRun_unlawful :
    silentRun.Prepared ∧ (∀ call ∈ handled silentRun.trace, call.left.error = call.state.error) ∧
      (published silentRun.trace).map AuditEvent.decision = ["ALLOW", "EXECUTED"] ∧
      ¬ silentRun.Lawful := by
  have hp : silentRun.Prepared := objectRun_prepared _ _
  have hw : ∀ call ∈ handled silentRun.trace, call.left.error = call.state.error := by
    decide +kernel
  refine ⟨hp, hw, by decide +kernel, fun h ↦ ?_⟩
  have hc := (lawful_iff_clean hp hw).mp h
  have hs : (handled silentRun.trace).head?.map HandlerCall.outcome = some (.error "") := rfl
  obtain ⟨call, hh, ho⟩ := Option.map_eq_some_iff.mp hs
  exact hc.texts call (List.mem_of_mem_head? hh) ho

end

end NhiSentinel.Agents
