import NhiSentinel.Anomaly.Service
import NhiSentinel.Identity.Api
import NhiSentinel.Pep.Runs

/-!
# Automatic suspension

The anomaly service, the identity API with its operators, and the enforcement point on one
Redis server. Which agents are suspended is kept twice: the service remembers for whom it has
posted a suspension, and Redis holds what the enforcement point reads. Events and requests are
taken one after the other, each on the state that the one before it leaves.
-/

namespace NhiSentinel.Anomaly
open NhiSentinel.Base NhiSentinel.Audit NhiSentinel.Identity

/-! ### Enforcement -/

/-- An agent is in the set of suspended agents, at all times. -/
def IsSuspended (st : Redis.Store) (agentId : String) : Prop :=
  ∀ now, (Redis.exec now (.sismember suspendedKey agentId) st).1 = .ok true

/-- The calls of an enforcement that reaches the Redis server: what it reads of sets is what is
in the store. -/
structure Reads (st : Redis.Store) (t : List Pep.Event) : Prop where
  connected : ∀ reply, ⟨.connect, reply⟩ ∈ t → reply = .ok ()
  read : ∀ key member reply, ⟨.redis (.sismember key member), reply⟩ ∈ t → ∃ now,
    reply = (Redis.exec now (.sismember key member) st).1.mapError fun _ ↦ "ResponseError"

/-- Every request of an agent ends in an exception, which is a denial unless the claims of the
token are malformed. -/
def Denies (st : Redis.Store) (agentId : String) : Prop :=
  ∀ rt s t out s', s.request.agentId = agentId → Py.Run (Pep.enforce rt) s t out s' → Reads st t →
    ∃ e, out = .error e ∧ ((∃ ip, Pep.tokenIp s.request = .ok ip) →
      ∃ reason policyRef, e = .policyDenial s.request.action reason policyRef)

/-- The agents that are suspended are the members of the set. -/
theorem isSuspended_iff {st : Redis.Store} {xs : List String} {agentId : String}
    (h : Redis.HoldsSet st suspendedKey xs) : IsSuspended st agentId ↔ agentId ∈ xs := by
  have hx (now : Nat) : (Redis.exec now (.sismember suspendedKey agentId) st).1 =
      .ok (decide (agentId ∈ xs)) := by
    rw [Redis.exec, h.members now]
    rfl
  constructor
  · intro hs
    have ht := (hx 0).symm.trans (hs 0)
    injection ht with ht
    exact of_decide_eq_true ht
  · intro hm now
    rw [hx, decide_eq_true hm]

section
variable {st : Redis.Store} {s s' : Pep.State} {t u : List Pep.Event}

/-- A read of a part of the trace is one of the trace. -/
theorem Reads.mono (h : Reads st u) (hs : t ⊆ u) : Reads st t :=
  ⟨fun r hm ↦ h.connected r (hs hm), fun k m r hm ↦ h.read k m r (hs hm)⟩

private theorem getRedis_reads {b : Bool} (h : Py.Run Pep.getRedis s t (.ok b) s')
    (hr : Reads st t) : b = true := by
  simp only [Pep.getRedis, Py.run_read_bind, Pep.ask] at h
  split at h
  · cases (Py.run_pure.mp h).2.1
    rfl
  · obtain ⟨reply, t', rfl, h₁⟩ := Py.run_ask_bind.mp h
    cases hr.connected reply List.mem_cons_self
    simp only [Py.run_update_bind, Py.run_pure] at h₁
    cases h₁.2.1
    rfl

/-- The suspension check denies the requests of a suspended agent. -/
theorem checkSuspension_reads {out : Except Pep.PyExn Unit}
    (h : Py.Run Pep.checkSuspension s t out s') (hr : Reads st t)
    (hs : IsSuspended st s.request.agentId) : ∃ reason,
      out = .error (.policyDenial s.request.action reason "pep.identity_suspended") := by
  simp only [Pep.checkSuspension, Py.run_read_bind] at h
  rcases Py.run_bind.mp h with ⟨e, h₁, -⟩ | ⟨b, t₁, t₂, s₁, rfl, h₁, h₂⟩
  · obtain ⟨-, -, -, b, hb⟩ := Pep.getRedis_run h₁
    cases hb
  cases getRedis_reads h₁ (hr.mono (List.subset_append_left ..))
  have hr₂ := hr.mono (List.subset_append_right t₁ t₂)
  rw [if_pos rfl] at h₂
  simp only [Py.run_handle, Pep.sismember, Pep.run_service_bind, cast_eq] at h₂
  -- the server answers that the agent is suspended
  have hanswer {reply : Except String Bool}
      (hm : ⟨.redis (.sismember "identities:suspended" s.request.agentId), reply⟩ ∈ t₂) :
      reply = .ok true := by
    obtain ⟨now, hn⟩ := hr₂.read _ _ _ hm
    have hx : (Redis.exec now (.sismember "identities:suspended" s.request.agentId) st).1 =
        .ok true := hs now
    rw [hn, hx]
    rfl
  rcases h₂ with ⟨a, ⟨b, t, rfl, hb⟩ | ⟨cls, -, he, -⟩, rfl⟩ |
    ⟨e, t, t', s₂, rfl, ⟨b, t, rfl, hb⟩ | ⟨cls, rfl, -, -⟩, h₃⟩
  · cases hanswer List.mem_cons_self
    rw [if_pos rfl, Py.run_raise] at hb
    cases hb.2.1
  · cases he
  · cases hanswer List.mem_cons_self
    rw [if_pos rfl, Py.run_raise] at hb
    cases hb.2.1
    exact ⟨_, (Py.run_raise.mp h₃).2.1⟩
  · cases hanswer List.mem_cons_self

/-- A suspended agent is denied. -/
theorem IsSuspended.denies {agentId : String} (h : IsSuspended st agentId) : Denies st agentId := by
  rintro rt s t out s' rfl hrun hr
  rw [Pep.enforce] at hrun
  rcases Py.run_bind.mp hrun with ⟨e, h₁, rfl⟩ | ⟨_, t₁, t₂, s₁, rfl, h₁, h₂⟩
  · obtain ⟨-, -, ⟨-, he⟩ | ⟨-, ⟨-, reason, he⟩ | ⟨⟨e', hip⟩, he⟩⟩⟩ := Pep.checkIpBinding_run h₁
    · cases he
    · cases he
      exact ⟨_, rfl, fun _ ↦ ⟨_, _, rfl⟩⟩
    · refine ⟨e, rfl, ?_⟩
      rintro ⟨ip, hi⟩
      cases hip.symm.trans hi
  · obtain ⟨rfl, rfl, -⟩ := Pep.checkIpBinding_run h₁
    rcases Py.run_bind.mp h₂ with ⟨e, h₃, rfl⟩ | ⟨_, t₃, t₄, s₂, rfl, h₃, -⟩
    · obtain ⟨reason, he⟩ := checkSuspension_reads h₃ hr h
      cases he
      exact ⟨_, rfl, fun _ ↦ ⟨_, _, rfl⟩⟩
    · obtain ⟨reason, he⟩ := checkSuspension_reads h₃ (hr.mono (List.subset_append_left ..)) h
      cases he

end

/-! ### The system -/

/-- The identity API with its Redis server. -/
structure Identities where
  api : IdentityApi
  store : Redis.Store

/-- The anomaly service next to the identity API. -/
structure Site extends Identities where
  service : Service

section
variable (route : String → Option String)

/-- What comes of the POST of a suspension, with the calls of the API; `route` tells for which
agent the API takes a URL. -/
inductive Posted (url : String) (body : Value) (s : Identities) :
    Except String Nat → List ApiEvent → Identities → Prop where
  | unreachable (cls : String) : Posted url body s (.error cls) [] s
  | unrouted (h : route url = none) : Posted url body s (.ok 404) [] s
  | served {agentId : String} (h : route url = some agentId) {t : List ApiEvent}
      {out : Except ApiExn Value} {api' : IdentityApi} {store' : Redis.Store}
      (hr : Py.Run (postSuspend agentId body) s.api t out api') (hs : Served s.store t store') :
      Posted url body s (.ok (status out)) t ⟨api', store'⟩
  | unanswered {agentId : String} (h : route url = some agentId) {t : List ApiEvent}
      {out : Except ApiExn Value} {api' : IdentityApi} {store' : Redis.Store}
      (hr : Py.Run (postSuspend agentId body) s.api t out api') (hs : Served s.store t store')
      (cls : String) : Posted url body s (.error cls) t ⟨api', store'⟩

/-- The calls of the service are answered one after the other, with the calls of the API. -/
inductive Delivers : Identities → List ServiceEvent → List ApiEvent → Identities → Prop where
  | nil (s : Identities) : Delivers s [] [] s
  | clock (now : Nat) {s s' : Identities} {calls : List ServiceEvent} {commands : List ApiEvent}
      (h : Delivers s calls commands s') : Delivers s (⟨.clock, now⟩ :: calls) commands s'
  | post {url : String} {body : Value} {resp : Except String Nat} {s s₁ s' : Identities}
      {calls : List ServiceEvent} {t commands : List ApiEvent}
      (hp : Posted route url body s resp t s₁) (h : Delivers s₁ calls commands s') :
      Delivers s (⟨.post url body, resp⟩ :: calls) (t ++ commands) s'

/-- What happens: an event is handled or scored, an operator suspends or reinstates an agent, the
service restarts, or someone else writes to Redis. -/
inductive Occurrence where
  | event (event : AuditEvent) (calls : List ServiceEvent) (commands : List ApiEvent)
  | score (event : AuditEvent)
  | suspend (agentId : String) (body : Value) (commands : List ApiEvent)
  | unsuspend (agentId : String) (commands : List ApiEvent)
  | restart
  | other

/-- One step. -/
inductive Step (env : Environment) (s : Site) : Occurrence → Site → Prop where
  | event {event : AuditEvent} {calls : List ServiceEvent} {commands : List ApiEvent}
      {service' : Service} {ids' : Identities}
      (hr : Py.Run (processEvent env event) s.service calls (.ok ()) service')
      (hd : Delivers route s.toIdentities calls commands ids') :
      Step env s (.event event calls commands) ⟨ids', service'⟩
  | score (event : AuditEvent) :
      Step env s (.score event) { s with service := (s.service.scoreEvent env event).2 }
  | suspend {agentId : String} {body : Value} {commands : List ApiEvent}
      {out : Except ApiExn Value} {api' : IdentityApi} {store' : Redis.Store}
      (hr : Py.Run (postSuspend agentId body) s.api commands out api')
      (hs : Served s.store commands store') :
      Step env s (.suspend agentId body commands) { s with api := api', store := store' }
  | unsuspend {agentId : String} {commands : List ApiEvent} {out : Except ApiExn Value}
      {api' : IdentityApi} {store' : Redis.Store}
      (hr : Py.Run (unsuspendIdentity agentId) s.api commands out api')
      (hs : Served s.store commands store') :
      Step env s (.unsuspend agentId commands) { s with api := api', store := store' }
  | restart : Step env s .restart { s with service := .new }
  | other (store' : Redis.Store) (h : store' suspendedKey = s.store suspendedKey) :
      Step env s .other { s with store := store' }

/-- A step with the states around it. -/
structure Transition where
  before : Site
  occurrence : Occurrence
  after : Site

/-- A Redis server whose key for the suspended agents holds a set. -/
structure Registry where
  store : Redis.Store
  members : List String
  holds : Redis.HoldsSet store suspendedKey members

/-- The beginning: both services have just started on a server. -/
def Registry.site (registry : Registry) : Site where
  api := ⟨0, 0⟩
  store := registry.store
  service := .new

/-- Steps one after the other. -/
inductive Runs (env : Environment) (registry : Registry) : List Transition → Site → Prop where
  | nil : Runs env registry [] registry.site
  | snoc {ts : List Transition} {s s' : Site} (h : Runs env registry ts s) {o : Occurrence}
      (hs : Step route env s o s') : Runs env registry (ts ++ [⟨s, o, s'⟩]) s'

/-! ### What a step does to the set -/

variable {route} {env : Environment} {s s' : Site} {xs : List String} {t : List ApiEvent}

/-- A request to suspend changes nothing but its agent, which is suspended when the request is
valid and Redis answers. -/
theorem postSuspend_served {st st' : Redis.Store} {api api' : IdentityApi} {agentId : String}
    {body : Value} {out : Except ApiExn Value}
    (hr : Py.Run (postSuspend agentId body) api t out api') (hs : Served st t st')
    (hk : Redis.HoldsSet st suspendedKey xs) :
    ∃ ys, Redis.HoldsSet st' suspendedKey ys ∧ (∀ x, x ≠ agentId → (x ∈ ys ↔ x ∈ xs)) ∧
      (SuspendRequest.validate? body ≠ none → Identity.Answered t → agentId ∈ ys) := by
  rcases postSuspend_run hr with hl | ⟨hv, rfl⟩
  · obtain ⟨ys, hy, hx, ha⟩ := hl.suspended hs hk
    exact ⟨ys, hy, hx, fun _ ↦ ha⟩
  · cases hs
    exact ⟨xs, hk, fun _ _ ↦ Iff.rfl, fun hn ↦ absurd hv hn⟩

/-- A POST changes nothing but the agent that its URL is for, which is suspended when the API and
Redis answer. -/
theorem Posted.effect {ids ids' : Identities} {url : String} {body : Value}
    {resp : Except String Nat} (h : Posted route url body ids resp t ids')
    (hk : Redis.HoldsSet ids.store suspendedKey xs) :
    ∃ ys, Redis.HoldsSet ids'.store suspendedKey ys ∧
      (∀ x, route url ≠ some x → (x ∈ ys ↔ x ∈ xs)) ∧
      ∀ x, route url = some x → SuspendRequest.validate? body ≠ none →
        (∃ statusCode, resp = .ok statusCode) → Identity.Answered t → x ∈ ys := by
  cases h with
  | unreachable cls => exact ⟨xs, hk, fun _ _ ↦ Iff.rfl, fun _ _ _ he ↦ nomatch he⟩
  | unrouted hn =>
    refine ⟨xs, hk, fun _ _ ↦ Iff.rfl, fun x hx ↦ ?_⟩
    cases hn.symm.trans hx
  | @served agentId hx _ _ _ _ hr hs | @unanswered agentId hx _ _ _ _ hr hs cls =>
    obtain ⟨ys, hy, hne, ha⟩ := postSuspend_served hr hs hk
    refine ⟨ys, hy, fun x hn ↦ hne x ?_, fun x hx' hv _ ↦ ?_⟩
    · rintro rfl
      exact hn hx
    · cases hx.symm.trans hx'
      exact ha hv

/-- The service posts valid requests. -/
theorem validate?_suspendBody (reason : String) (now : Nat) :
    SuspendRequest.validate? (suspendBody reason now) ≠ none := by
  simp [SuspendRequest.validate?, suspendBody, Value.get?, List.lookup_cons, Pep.validateStr,
    Pep.validateStrOrNone]

/-- Everything the service posts, answered. -/
structure Answers (calls : List ServiceEvent) (commands : List ApiEvent) : Prop where
  api : ∀ url body resp, ⟨.post url body, resp⟩ ∈ calls → ∃ statusCode, resp = .ok statusCode
  redis : Identity.Answered commands

/-- A suspension is posted where its agent is not marked: it changes nothing but the agent that
its URL is for, which is suspended when the API and Redis answer. -/
theorem posts_delivers {service : Service} {agentId reason : String} {ids ids' : Identities}
    {calls : List ServiceEvent} {commands : List ApiEvent}
    (hp : service.Posts env agentId reason calls) (hd : Delivers route ids calls commands ids')
    (hk : Redis.HoldsSet ids.store suspendedKey xs) :
    ∃ ys, Redis.HoldsSet ids'.store suspendedKey ys ∧
      (∀ x, agentId ∈ service.suspended ∨ route (suspendUrl env agentId) ≠ some x →
        (x ∈ ys ↔ x ∈ xs)) ∧
      ∀ x, agentId ∉ service.suspended → route (suspendUrl env agentId) = some x →
        Answers calls commands → x ∈ ys := by
  rcases hp with ⟨hm, rfl⟩ | ⟨hm, now, resp, rfl⟩
  · cases hd
    exact ⟨xs, hk, fun _ _ ↦ Iff.rfl, fun _ hn ↦ absurd hm hn⟩
  · cases hd with
    | clock _ hd =>
      cases hd with
      | post hpost hd =>
        cases hd
        obtain ⟨ys, hy, hne, ha⟩ := hpost.effect hk
        refine ⟨ys, hy, fun x hx ↦ hne x (hx.resolve_left hm), fun x _ hx hans ↦ ?_⟩
        have hres := hans.api _ _ _ (List.mem_cons_of_mem _ List.mem_cons_self)
        have hred := hans.redis
        rw [List.append_nil] at hred
        exact ha x hx (validate?_suspendBody _ _) hres hred

/-- A breach of an agent that is answered suspends it, unless it is marked or its URL is for
another agent: then nothing changes for it. -/
theorem Step.suspended_iff {event : AuditEvent} {calls : List ServiceEvent}
    {commands : List ApiEvent} (h : Step route env s (.event event calls commands) s')
    (hk : Redis.HoldsSet s.store suspendedKey xs) (hb : s.service.Breaches env event)
    (ha : Answers calls commands) :
    IsSuspended s'.store event.agentId ↔ IsSuspended s.store event.agentId ∨
      (event.agentId ∉ s.service.suspended ∧
        route (suspendUrl env event.agentId) = some event.agentId) := by
  cases h with
  | event hr hd =>
    obtain ⟨-, rfl, ⟨-, hp⟩ | ⟨hn, -⟩⟩ := processEvent_run.mp hr
    · obtain ⟨ys, hy, hsame, hadd⟩ := posts_delivers hp hd hk
      rw [isSuspended_iff hk, isSuspended_iff hy]
      by_cases hc : event.agentId ∉ s.service.suspended ∧
          route (suspendUrl env event.agentId) = some event.agentId
      · exact iff_of_true (hadd _ hc.1 hc.2 ha) (.inr hc)
      · rw [or_iff_left hc]
        apply hsame
        rwa [not_and_or, not_not] at hc
    · exact absurd hb hn

/-- Every step leaves a set where there was one. -/
theorem Step.holds {o : Occurrence} (h : Step route env s o s')
    (hk : Redis.HoldsSet s.store suspendedKey xs) :
    ∃ ys, Redis.HoldsSet s'.store suspendedKey ys := by
  cases h with
  | event hr hd =>
    obtain ⟨-, -, ⟨-, hp⟩ | ⟨-, rfl⟩⟩ := processEvent_run.mp hr
    · obtain ⟨ys, hy, -⟩ := posts_delivers hp hd hk
      exact ⟨ys, hy⟩
    · cases hd
      exact ⟨xs, hk⟩
  | score | restart => exact ⟨xs, hk⟩
  | suspend hr hs =>
    obtain ⟨ys, hy, -⟩ := postSuspend_served hr hs hk
    exact ⟨ys, hy⟩
  | unsuspend hr hs =>
    obtain ⟨ys, hy, -⟩ := (unsuspendIdentity_run hr).reinstated hs hk
    exact ⟨ys, hy⟩
  | other store' he => exact ⟨xs, hk.congr he⟩

/-! ### Runs -/

/-- An event of the agent breaches in a transition. -/
def Transition.BreachOf (env : Environment) (t : Transition) (agentId : String) : Prop :=
  ∃ event calls commands, t.occurrence = .event event calls commands ∧
    event.agentId = agentId ∧ t.before.service.Breaches env event

/-- An event of the agent has breached since the service has started. -/
def BreachedBefore (env : Environment) (ts : List Transition) (agentId : String) : Prop :=
  ∃ before t after, ts = before ++ t :: after ∧ t.BreachOf env agentId ∧
    ∀ u ∈ after, u.occurrence ≠ .restart

section
variable {registry : Registry} {ts : List Transition}

/-- Along a run the key holds a set. -/
theorem Runs.holds (h : Runs route env registry ts s) :
    ∃ xs, Redis.HoldsSet s.store suspendedKey xs := by
  induction h with
  | nil => exact ⟨_, registry.holds⟩
  | snoc _ hs ih =>
    obtain ⟨xs, hk⟩ := ih
    exact hs.holds hk

/-- A transition of a run is a step from where the run before it leads. -/
theorem Runs.split (h : Runs route env registry ts s) {before after : List Transition}
    {t : Transition} (ht : ts = before ++ t :: after) :
    Runs route env registry before t.before ∧ Step route env t.before t.occurrence t.after := by
  induction h generalizing after with
  | nil => simp at ht
  | @snoc ts s s' h o hs ih =>
    rcases List.eq_nil_or_concat after with rfl | ⟨after, u, rfl⟩
    · obtain ⟨rfl, hl⟩ := List.append_inj' ht rfl
      cases hl
      exact ⟨h, hs⟩
    · rw [List.concat_eq_append, ← List.cons_append, ← List.append_assoc] at ht
      exact ih (List.append_inj' ht rfl).1

/-- One more transition: it breaches itself, or the breach is before it and it is no restart. -/
theorem breachedBefore_concat {t : Transition} {agentId : String} :
    BreachedBefore env (ts ++ [t]) agentId ↔
      t.BreachOf env agentId ∨ t.occurrence ≠ .restart ∧ BreachedBefore env ts agentId := by
  constructor
  · rintro ⟨before, u, after, he, hb, ha⟩
    rcases List.eq_nil_or_concat after with rfl | ⟨after, v, rfl⟩
    · obtain ⟨-, hl⟩ := List.append_inj' he rfl
      cases hl
      exact .inl hb
    · rw [List.concat_eq_append] at ha
      rw [List.concat_eq_append, ← List.cons_append, ← List.append_assoc] at he
      obtain ⟨rfl, hl⟩ := List.append_inj' he rfl
      cases hl
      exact .inr ⟨ha _ (by simp), before, u, after, rfl, hb, fun w hw ↦ ha w (by simp [hw])⟩
  · rintro (hb | ⟨hr, before, u, after, rfl, hb, ha⟩)
    · exact ⟨ts, t, [], rfl, hb, by simp⟩
    · refine ⟨before, u, after ++ [t], by simp, hb, fun w hw ↦ ?_⟩
      rcases List.mem_append.mp hw with hw | hw
      · exact ha w hw
      · cases List.mem_singleton.mp hw
        exact hr

/-- The service has marked the agents of the breaches since it has started. -/
theorem Runs.mem_suspended_iff (h : Runs route env registry ts s) {agentId : String} :
    agentId ∈ s.service.suspended ↔ BreachedBefore env ts agentId := by
  induction h with
  | nil =>
    constructor
    · intro hm
      cases hm
    · rintro ⟨before, t, after, he, -⟩
      simp at he
  | snoc h hs ih =>
    rw [breachedBefore_concat, ← ih]
    cases hs with
    | @event event calls commands service' ids' hr hd =>
      obtain ⟨-, rfl, -⟩ := processEvent_run.mp hr
      rw [mem_handled]
      refine or_congr ?_ (and_iff_right nofun).symm
      constructor
      · rintro ⟨rfl, hb⟩
        exact ⟨event, calls, commands, rfl, rfl, hb⟩
      · rintro ⟨_, _, _, he, ha, hb⟩
        cases he
        exact ⟨ha.symm, hb⟩
    | restart =>
      constructor
      · intro hm
        cases hm
      · rintro (⟨_, _, _, he, -⟩ | ⟨hn, -⟩)
        · cases he
        · exact absurd rfl hn
    | score | suspend | unsuspend | other =>
      constructor
      · intro hm
        exact .inr ⟨nofun, hm⟩
      · rintro (⟨_, _, _, he, -⟩ | ⟨-, hm⟩)
        · cases he
        · exact hm

/-- What is promised of a run: an agent whose event breaches while the identity API and Redis
answer is suspended then, and the enforcement point denies it. -/
def BreachesSuspend (env : Environment) (ts : List Transition) : Prop :=
  ∀ t ∈ ts, ∀ event calls commands, t.occurrence = .event event calls commands →
    t.before.service.Breaches env event → Answers calls commands →
      IsSuspended t.after.store event.agentId ∧ Denies t.after.store event.agentId

/-- Each agent whose event breaches while the identity API and Redis answer is suspended already,
or it is the first breach of the agent since the service has started and the URL is for it. -/
def BreachesFirst (route : String → Option String) (env : Environment) (ts : List Transition) :
    Prop :=
  ∀ before t after, ts = before ++ t :: after → ∀ event calls commands,
    t.occurrence = .event event calls commands → t.before.service.Breaches env event →
      Answers calls commands → IsSuspended t.before.store event.agentId ∨
        (¬ BreachedBefore env before event.agentId ∧
          route (suspendUrl env event.agentId) = some event.agentId)

/-- In a run, every breach that is answered suspends its agent exactly when each finds the agent
suspended or is its first one since the service has started. -/
theorem breachesSuspend_iff_breachesFirst (h : Runs route env registry ts s) :
    BreachesSuspend env ts ↔ BreachesFirst route env ts := by
  -- one transition of the run
  have hstep {before after : List Transition} {t : Transition} (ht : ts = before ++ t :: after)
      {event : AuditEvent} {calls : List ServiceEvent} {commands : List ApiEvent}
      (ho : t.occurrence = .event event calls commands)
      (hb : t.before.service.Breaches env event) (ha : Answers calls commands) :
      IsSuspended t.after.store event.agentId ∧ Denies t.after.store event.agentId ↔
        IsSuspended t.before.store event.agentId ∨ (¬ BreachedBefore env before event.agentId ∧
          route (suspendUrl env event.agentId) = some event.agentId) := by
    obtain ⟨hr, hs⟩ := h.split ht
    obtain ⟨xs, hk⟩ := hr.holds
    rw [ho] at hs
    rw [← hr.mem_suspended_iff, ← hs.suspended_iff hk hb ha]
    exact and_iff_left_of_imp IsSuspended.denies
  constructor
  · intro hp before t after ht event calls commands ho hb ha
    exact (hstep ht ho hb ha).mp (hp t (by simp [ht]) event calls commands ho hb ha)
  · intro hc t hm event calls commands ho hb ha
    obtain ⟨before, after, ht⟩ := List.append_of_mem hm
    exact (hstep ht ho hb ha).mpr (hc before t after ht event calls commands ho hb ha)

end

end

/-! ### Bursts of deletions -/

/-- A deletion by an agent. -/
def deletion : AuditEvent where
  eventId := "00000000-0000-4000-8000-000000000000"
  timestamp := .utc 0
  agentId := "agent-data-001"
  agentType := "DataAgent"
  taskId := "task-001"
  action := "s3:DeleteObject"
  resourceArn := "arn:aws:s3:::bucket/key"
  decision := "DENY"

/-- A forest that was fitted on the event it scores is undecided about it. -/
def undecided : Environment := ⟨id, fun _ _ ↦ 5000, "http://localhost:8002"⟩

/-- The agent is found under its URL. -/
def direct (url : String) : Option String :=
  if url = suspendUrl undecided "agent-data-001" then some "agent-data-001" else none

/-- A server without keys. -/
def emptyRegistry : Registry := ⟨fun _ ↦ none, [], .inl ⟨rfl, rfl⟩⟩

/-- The POST of the eleventh deletion, with the calls of the API. -/
def burstCalls : List ServiceEvent := [⟨.clock, (0 : Nat)⟩,
  ⟨.post (suspendUrl undecided "agent-data-001")
    (suspendBody "Burst detection: 11 events in window" 0), .ok 200⟩]

/-- The calls of the API with their replies. -/
def burstCommands : List ApiEvent := [⟨.client, .ok ()⟩,
  ⟨.redis (.sadd suspendedKey "agent-data-001"), .ok (1 : Nat)⟩,
  ⟨.redis (.set (reasonKey "agent-data-001")
    s!"{Python.isoformat 0}|Burst detection: 11 events in window"), .ok ()⟩]

/-- Eleven deletions. -/
def burst : List Occurrence :=
  List.replicate 10 (.event deletion [] []) ++ [.event deletion burstCalls burstCommands]

/-- The reinstatement of the agent after that. -/
def reinstatementCommands : List ApiEvent := [⟨.client, .ok ()⟩,
  ⟨.redis (.srem suspendedKey "agent-data-001"), .ok (1 : Nat)⟩,
  ⟨.redis (.del (reasonKey "agent-data-001")), .ok (1 : Nat)⟩]

/-- What a server answers that has the agent in no set. -/
def reply : (c : ApiCall) → c.Reply
  | .client => .ok ()
  | .redis (.sadd ..) => .ok (1 : Nat)
  | .redis (.srem ..) => .ok (1 : Nat)
  | .redis (.set ..) => .ok ()
  | .redis (.del _) => .ok (1 : Nat)
  | .redis _ => .error "ConnectionError"
  | .clock => (0 : Nat)

private theorem breaches_undecided {service : Service} {n : Nat}
    (hn : service.bursters deletion.agentId = { count := n }) :
    service.Breaches undecided deletion ↔ 10 ≤ n := by
  have hs (scorer : AnomalyScorer) : scorer.isAnomalous undecided deletion ≠ true := by
    obtain ⟨_ | samples⟩ := scorer <;> exact nofun
  rw [Service.Breaches, or_iff_left (hs _), observe_bursters, hn]
  exact (isBurst_iff (n + 1)).trans Nat.lt_succ_iff

private theorem exists_quiet {ts : List Transition} {s : Site}
    (h : Runs direct undecided emptyRegistry ts s)
    (hs : s.service.bursters deletion.agentId = { count := 0 }) (n : Nat) (hn : n ≤ 10) :
    ∃ us service, Runs direct undecided emptyRegistry (ts ++ us) { s with service := service } ∧
      us.map Transition.occurrence = List.replicate n (.event deletion [] []) ∧
      service.bursters deletion.agentId = { count := n } ∧
      service.suspended = s.service.suspended := by
  induction n with
  | zero => exact ⟨[], s.service, by rwa [List.append_nil], rfl, hs, rfl⟩
  | succ n ih =>
    obtain ⟨us, service, hr, ho, hc, hs⟩ := ih (by omega)
    have hb : ¬ service.Breaches undecided deletion := by
      rw [breaches_undecided hc]
      omega
    have he : service.handled undecided deletion = service.observe undecided deletion := by
      rw [Service.handled, if_neg (hb ∘ .inl), if_neg (hb ∘ .inr)]
    have hr' := hr.snoc (.event (processEvent_run.mpr ⟨rfl, he.symm, .inr ⟨hb, rfl⟩⟩) (.nil _))
    rw [List.append_assoc] at hr'
    refine ⟨_, _, hr', ?_, ?_, hs⟩
    · rw [List.map_append, ho, List.replicate_succ']
      rfl
    · rw [observe_bursters, BurstDetector.record, hc]

private theorem exists_burst : ∃ ts s, Runs direct undecided emptyRegistry ts s ∧
    ts.map Transition.occurrence = burst ∧
      s.service.bursters deletion.agentId = { count := 0 } ∧
        deletion.agentId ∈ s.service.suspended ∧ s.api = ⟨1, 0⟩ ∧
          s.store suspendedKey = some ⟨.set [deletion.agentId], none⟩ ∧
          ∃ reason, s.store (reasonKey deletion.agentId) = some ⟨.text reason, none⟩ := by
  obtain ⟨ts, service, hr, ho, hc, hs⟩ := exists_quiet .nil rfl 10 le_rfl
  have hb : service.Breaches undecided deletion := (breaches_undecided hc).mpr le_rfl
  have hburst :
      ((service.observe undecided deletion).bursters deletion.agentId).isBurst = true := by
    rw [observe_bursters, hc]
    exact (isBurst_iff 11).mpr (by decide)
  have hreason : service.reason undecided deletion = "Burst detection: 11 events in window" := by
    rw [Service.reason, if_pos hburst, observe_bursters, BurstDetector.record, hc]
    rfl
  have hm : deletion.agentId ∉ service.suspended := by
    rw [hs]
    exact List.not_mem_nil
  have hpost : service.Posts undecided deletion.agentId (service.reason undecided deletion)
      burstCalls := .inr ⟨hm, 0, .ok 200, by rw [hreason]; rfl⟩
  -- the API marks the agent on the server without keys
  have hserve := Py.run_exec (fun _ ↦ reply) (postSuspend deletion.agentId
    (suspendBody "Burst detection: 11 events in window" 0)) ⟨0, 0⟩
  have hserved : ∃ store, Served emptyRegistry.store burstCommands store ∧
      store suspendedKey = some ⟨.set [deletion.agentId], none⟩ ∧
        ∃ reason, store (reasonKey deletion.agentId) = some ⟨.text reason, none⟩ :=
    ⟨_, .client _ (.redis 0 .answered (.redis 0 .answered (.nil _))),
      (Redis.exec_of_ne (reasonKey_ne _).symm).trans rfl, _, rfl⟩
  obtain ⟨store, hserved, hstore⟩ := hserved
  have hroute : direct (suspendUrl undecided deletion.agentId) = some deletion.agentId := if_pos rfl
  have hposted : Posted direct (suspendUrl undecided deletion.agentId)
      (suspendBody "Burst detection: 11 events in window" 0) emptyRegistry.site.toIdentities
      _ _ _ :=
    .served hroute hserve hserved
  have hr' := hr.snoc (.event (processEvent_run.mpr ⟨rfl, rfl, .inl ⟨hb, hpost⟩⟩)
    (.clock 0 (.post hposted (.nil _))))
  refine ⟨_, _, hr', ?_, ?_, mem_handled.mpr (.inl ⟨rfl, hb⟩), rfl, hstore⟩
  · rw [List.map_append, List.nil_append, ho]
    rfl
  · rw [handled_bursters hburst]
    show (service.bursters deletion.agentId).record.reset = _
    rw [hc]
    rfl

/-- The run of eleven deletions: its breach is the first. -/
theorem breachesSuspend_burst : ∃ ts s, Runs direct undecided emptyRegistry ts s ∧
    ts.map Transition.occurrence = burst ∧
      (BreachesSuspend undecided ts ↔ BreachesFirst direct undecided ts) := by
  obtain ⟨ts, s, hr, ho, -⟩ := exists_burst
  exact ⟨ts, s, hr, ho, breachesSuspend_iff_breachesFirst hr⟩

private theorem exists_reinstated : ∃ ts s, Runs direct undecided emptyRegistry ts s ∧
    ts.map Transition.occurrence =
      burst ++ [.unsuspend deletion.agentId reinstatementCommands] ∧
      s.service.bursters deletion.agentId = { count := 0 } ∧
        deletion.agentId ∈ s.service.suspended ∧ s.store suspendedKey = none := by
  obtain ⟨ts, s, hr, ho, hc, hm, hapi, hk, reason, htext⟩ := exists_burst
  have hserve := Py.run_exec (fun _ ↦ reply) (unsuspendIdentity deletion.agentId) s.api
  rw [hapi] at hserve
  -- both keys are removed
  have hset : Redis.HoldsSet s.store suspendedKey [deletion.agentId] := .inr hk
  have hsrem : Redis.exec 0 (.srem suspendedKey deletion.agentId) s.store =
      (.ok (1 : Nat), s.store.put suspendedKey none) := by
    rw [Redis.exec, Redis.srem, hset.members 0]
    rfl
  have hdel : Redis.exec 0 (.del (reasonKey deletion.agentId)) (s.store.put suspendedKey none) =
      (.ok (1 : Nat), (s.store.put suspendedKey none).put (reasonKey deletion.agentId) none) := by
    have hl : (s.store.put suspendedKey none).live 0 (reasonKey deletion.agentId) =
        some ⟨.text reason, none⟩ :=
      Redis.live_of_expires ((Redis.Store.put_of_ne _ _ (reasonKey_ne _)).trans htext)
        fun _ hx ↦ by cases hx
    rw [Redis.exec, hl]
    rfl
  have h₁ := @Redis.Sent.answered 0 s.store (.srem suspendedKey deletion.agentId)
  have h₂ := @Redis.Sent.answered 0 (s.store.put suspendedKey none)
    (.del (reasonKey deletion.agentId))
  rw [hsrem] at h₁
  rw [hdel] at h₂
  have hserved : Served s.store reinstatementCommands _ :=
    .client _ (.redis 0 h₁ (.redis 0 h₂ (.nil _)))
  have hgone : ((s.store.put suspendedKey none).put (reasonKey deletion.agentId) none)
      suspendedKey = none := by
    rw [Redis.Store.put_of_ne _ _ (reasonKey_ne _).symm, Redis.Store.put_self]
  refine ⟨_, _, hr.snoc (.unsuspend (hapi ▸ hserve) hserved), ?_, hc, hm, hgone⟩
  rw [List.map_append, ho]
  rfl

/-- An agent that is reinstated is not suspended again: eleven deletions after that breach, and
the agent goes on. -/
theorem reinstated_not_suspended : ∃ ts s, Runs direct undecided emptyRegistry ts s ∧
    ts.map Transition.occurrence = burst ++ [.unsuspend "agent-data-001" reinstatementCommands] ++
      List.replicate 11 (.event deletion [] []) ∧ ¬ BreachesSuspend undecided ts := by
  obtain ⟨ts, s, hr, ho, hc, hm, hk⟩ := exists_reinstated
  obtain ⟨us, service, hr, hou, hcu, hs⟩ := exists_quiet hr hc 10 le_rfl
  have hb : service.Breaches undecided deletion := (breaches_undecided hcu).mpr le_rfl
  rw [← hs] at hm
  -- the last deletion breaches, and nothing is posted
  have hr' := hr.snoc (.event (processEvent_run.mpr ⟨rfl, rfl, .inl ⟨hb, .inl ⟨hm, rfl⟩⟩⟩) (.nil _))
  refine ⟨_, _, hr', ?_, fun hp ↦ ?_⟩
  · rw [List.map_append, List.map_append, ho, hou, List.append_assoc]
    rfl
  · have hx := (hp _ (List.mem_append_right _ (List.mem_singleton_self _)) deletion [] [] rfl hb
      ⟨nofun, nofun, nofun⟩).1
    exact absurd ((isSuspended_iff (.inl ⟨hk, rfl⟩)).mp hx) (List.not_mem_nil)

end NhiSentinel.Anomaly
