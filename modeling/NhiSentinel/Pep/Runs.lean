import NhiSentinel.Pep.Client

/-!
# Runs of the enforcement point

What each method can do, said once: the calls it makes, the exception or value it ends
in, and the state it leaves, under every behaviour of the services it calls.
-/

namespace NhiSentinel.Pep
open NhiSentinel.Base

/-! ### Service calls -/

section
variable {s s' : State} {t : List Event}

/-- The clock is read before what follows. -/
@[simp] theorem run_now_bind {α : Type} {f : Nat → Method α} {out : Except PyExn α} :
    Py.Run (now >>= f) s t out s' ↔ ∃ (r : Nat) (t' : List Event),
      t = ⟨.clock, r⟩ :: t' ∧ Py.Run (f r) s t' out s' := Py.run_ask_bind

/-- An identifier is drawn before what follows. -/
@[simp] theorem run_uuid4_bind {α : Type} {f : String → Method α} {out : Except PyExn α} :
    Py.Run (uuid4 >>= f) s t out s' ↔ ∃ (r : String) (t' : List Event),
      t = ⟨.uuid4, r⟩ :: t' ∧ Py.Run (f r) s t' out s' := Py.run_ask_bind

/-- A document is posted before what follows. -/
@[simp] theorem run_post_bind {α : Type} {url : String} {body : Value} {f : HttpReply → Method α}
    {out : Except PyExn α} :
    Py.Run (post url body >>= f) s t out s' ↔ ∃ (r : HttpReply) (t' : List Event),
      t = ⟨.post url body, r⟩ :: t' ∧ Py.Run (f r) s t' out s' := Py.run_ask_bind

/-- A service call succeeds, or its exception ends the method. -/
theorem run_service_bind {α β : Type} {c : Call} {h : c.Reply = Except String α}
    {f : α → Method β} {out : Except PyExn β} :
    Py.Run (service c h >>= f) s t out s' ↔
      (∃ a t', t = ⟨c, cast h.symm (.ok a)⟩ :: t' ∧ Py.Run (f a) s t' out s') ∨
      ∃ cls, t = [⟨c, cast h.symm (.error cls)⟩] ∧ out = .error (.other cls) ∧ s' = s := by
  rw [Py.run_bind, service, ask]
  simp only [Py.run_ask_bind, valueOf, Py.run_ofExcept]
  constructor
  · rintro (⟨e, ⟨r, _, rfl, rfl, he, rfl⟩, rfl⟩ | ⟨a, _, t₂, _, rfl, ⟨r, _, rfl, rfl, ha, rfl⟩, hf⟩)
    · obtain ⟨r, rfl⟩ : ∃ r', r = cast h.symm r' := ⟨cast h r, by simp⟩
      rw [cast_cast, cast_eq] at he
      cases r with
      | ok a => cases he
      | error cls =>
        cases he
        exact .inr ⟨cls, rfl, rfl, rfl⟩
    · obtain ⟨r, rfl⟩ : ∃ r', r = cast h.symm r' := ⟨cast h r, by simp⟩
      rw [cast_cast, cast_eq] at ha
      cases r with
      | ok b =>
        cases ha
        exact .inl ⟨a, t₂, rfl, hf⟩
      | error cls => cases ha
  · rintro (⟨a, t', rfl, hf⟩ | ⟨cls, rfl, rfl, rfl⟩)
    · exact .inr ⟨a, [_], t', s, rfl, ⟨_, [], rfl, rfl, by simp [Except.mapError], rfl⟩, hf⟩
    · exact .inl ⟨_, ⟨_, [], rfl, rfl, by simp [Except.mapError], rfl⟩, rfl⟩

/-- A service call on its own. -/
theorem run_service {α : Type} {c : Call} {h : c.Reply = Except String α} {out : Except PyExn α} :
    Py.Run (service c h) s t out s' ↔
      ∃ r : Except String α, t = [⟨c, cast h.symm r⟩] ∧ out = r.mapError .other ∧ s' = s := by
  rw [service, ask]
  simp only [Py.run_ask_bind, valueOf, Py.run_ofExcept]
  constructor
  · rintro ⟨r, _, rfl, rfl, rfl, rfl⟩
    exact ⟨cast h r, by simp, rfl, rfl⟩
  · rintro ⟨r, rfl, rfl, rfl⟩
    exact ⟨_, [], rfl, rfl, by simp, rfl⟩

end

/-! ### Stages -/

/-- The part of an enforcement that a call belongs to. -/
inductive Stage where
  | connection
  | suspension
  | counter
  | clock
  | policy
  | resource
  | approval
  | tool
  deriving DecidableEq

/-- The stage of a call. -/
def Call.stage : Call → Stage
  | connect => .connection
  | redis (.sismember ..) => .suspension
  | redis (.incr _) | redis (.expire ..) => .counter
  | redis _ | uuid4 | approvalClient | approvalTtl => .approval
  | clock => .clock
  | post .. => .policy
  | cedar _ => .resource
  | tool => .tool

/-- All calls of a run belong to the given stages. -/
def Within (stages : List Stage) (t : List Event) : Prop := ∀ e ∈ t, e.1.stage ∈ stages

/-- A trace without calls is within any stages. -/
@[simp] theorem within_nil (stages : List Stage) : Within stages [] := by simp [Within]

/-- A trace is within the stages of its first call and of the others. -/
@[simp] theorem within_cons (stages : List Stage) (e : Event) (t : List Event) :
    Within stages (e :: t) ↔ e.1.stage ∈ stages ∧ Within stages t := by simp [Within]

/-- Two traces one after the other are within the stages that each is within. -/
@[simp] theorem within_append (stages : List Stage) (t u : List Event) :
    Within stages (t ++ u) ↔ Within stages t ∧ Within stages u := by
  simp [Within, or_imp, forall_and]

/-- The stages may be more. -/
theorem Within.mono {stages stages' : List Stage} {t : List Event} (h : Within stages t)
    (hs : ∀ x ∈ stages, x ∈ stages') : Within stages' t := fun e he ↦ hs _ (h e he)

/-! ### What a run reports -/

/-- The server reports the agent as suspended. -/
def suspends (agentId : String) : Event → Bool
  | ⟨.redis (.sismember key member), .ok b⟩ => key = "identities:suspended" && member = agentId && b
  | _ => false

/-- A key was given its time to live. -/
def expires : Event → Bool
  | ⟨.redis (.expire ..), .ok _⟩ => true
  | _ => false

/-- The count that an increment answers. -/
def increment? : Event → Option Int
  | ⟨.redis (.incr _), .ok n⟩ => some n
  | _ => none

/-- The count that is injected: that of the increment, unless the key is new and its time to
live could not be set. -/
def injected (t : List Event) : Option Int :=
  (t.findSome? increment?).filter fun n ↦ n ≠ 1 || t.any expires

/-- The request as it is sent after the given calls. -/
def ActionRequest.sent (request : ActionRequest) (t : List Event) : ActionRequest :=
  match injected t with
  | some count => request.withCount count
  | none => request

/-- The request that is sent is for the same action. -/
@[simp] theorem sent_action (request : ActionRequest) (t : List Event) :
    (request.sent t).action = request.action := by
  rw [ActionRequest.sent]
  split <;> rfl

/-- A reply that reports the agent suspended is that of the check. -/
theorem suspends_stage {agentId : String} {e : Event} (h : suspends agentId e = true) :
    e.1.stage = .suspension := by
  unfold suspends at h
  split at h
  · rfl
  · cases h

private theorem expires_stage {e : Event} (h : expires e = true) : e.1.stage = .counter := by
  unfold expires at h
  split at h
  · rfl
  · cases h

/-- A reply of another stage is not in the trace. -/
theorem any_of_within {stages : List Stage} {stage : Stage} {p : Event → Bool} {t : List Event}
    (hp : ∀ e, p e = true → e.1.stage = stage) (h : Within stages t) (hs : stage ∉ stages) :
    t.any p = false := by
  rw [List.any_eq_false]
  intro e he hpe
  exact hs (hp e hpe ▸ h e he)

private theorem increment?_of_within {stages : List Stage} {t : List Event}
    (h : Within stages t) (hs : .counter ∉ stages) : t.findSome? increment? = none := by
  rw [List.findSome?_eq_none_iff]
  intro e he
  unfold increment?
  split
  · exact absurd (h _ he) hs
  · rfl

/-- Calls of other stages neither inject a count nor change the one that is injected. -/
theorem injected_append {stages : List Stage} {t u v : List Event} (ht : Within stages t)
    (hv : Within stages v) (hs : .counter ∉ stages) :
    injected (t ++ u ++ v) = injected u := by
  rw [injected, injected, List.findSome?_append, List.findSome?_append, List.any_append,
    List.any_append, increment?_of_within ht hs, increment?_of_within hv hs,
    any_of_within (fun _ ↦ expires_stage) ht hs, any_of_within (fun _ ↦ expires_stage) hv hs]
  simp

/-! ### Methods -/

/-- The bound address is empty or the address of the request. -/
def IpBound (request : ActionRequest) : Prop :=
  ∃ ip, tokenIp request = .ok ip ∧ (ip.truthy = false ∨ ip = .str request.sourceIp)

section
variable {rt : Runtime} {s s' : State} {t : List Event}

/-- The address check makes no call: it passes, denies, or fails on ill-typed claims. -/
theorem checkIpBinding_run {out : Except PyExn Unit}
    (h : Py.Run (checkIpBinding rt) s t out s') :
    t = [] ∧ s' = s ∧
      ((IpBound s.request ∧ out = .ok ()) ∨
        (¬ IpBound s.request ∧
          ((∃ ip, tokenIp s.request = .ok ip) ∧
              (∃ reason, out = .error (.policyDenial s.request.action reason "pep.ip_binding")) ∨
            (∃ e, tokenIp s.request = .error e) ∧ out = .error (.other "AttributeError")))) := by
  simp only [checkIpBinding, Py.run_read_bind] at h
  cases hip : tokenIp s.request with
  | ok ip =>
    simp only [hip, Py.run_ofExcept_ok_bind] at h
    split at h
    · next hc =>
      simp only [Py.run_raise] at h
      obtain ⟨rfl, rfl, rfl⟩ := h
      refine ⟨rfl, rfl, .inr ⟨?_, .inl ⟨⟨ip, rfl⟩, _, rfl⟩⟩⟩
      rintro ⟨ip', hi, hb⟩
      cases hip.symm.trans hi
      rcases hb with hb | hb
      · rw [hb] at hc
        cases hc.1
      · exact hc.2 hb
    · next hc =>
      simp only [Py.run_pure] at h
      obtain ⟨rfl, rfl, rfl⟩ := h
      refine ⟨rfl, rfl, .inl ⟨⟨ip, hip, ?_⟩, rfl⟩⟩
      rw [not_and, not_not] at hc
      cases ht : ip.truthy with
      | false => exact .inl rfl
      | true => exact .inr (hc ht)
  | error e =>
    simp only [hip, Py.run_ofExcept_error_bind] at h
    obtain ⟨rfl, rfl, rfl⟩ := h
    refine ⟨rfl, rfl, .inr ⟨?_, .inr ?_⟩⟩
    · rintro ⟨ip, hi, -⟩
      cases hip.symm.trans hi
    · cases tokenIp_error hip
      exact ⟨⟨_, rfl⟩, rfl⟩

/-- Connecting never fails; it changes nothing but the enforcement point's client. -/
theorem getRedis_run {out : Except PyExn Bool} (h : Py.Run getRedis s t out s') :
    Within [.connection] t ∧ s'.request = s.request ∧ s'.pep.opaUrl = s.pep.opaUrl ∧
      ∃ b, out = .ok b := by
  simp only [getRedis, Py.run_read_bind, ask] at h
  split at h
  · simp only [Py.run_pure] at h
    obtain ⟨rfl, rfl, rfl⟩ := h
    exact ⟨within_nil _, rfl, rfl, _, rfl⟩
  · simp only [Py.run_ask_bind] at h
    obtain ⟨r, t', rfl, h⟩ := h
    cases r with
    | ok u =>
      simp only [Py.run_update_bind, Py.run_pure] at h
      obtain ⟨rfl, rfl, rfl⟩ := h
      exact ⟨by simp [Call.stage], rfl, rfl, _, rfl⟩
    | error cls =>
      simp only [Py.run_update_bind, Py.run_pure] at h
      obtain ⟨rfl, rfl, rfl⟩ := h
      exact ⟨by simp [Call.stage], rfl, rfl, _, rfl⟩

/-- The suspension check denies when the server reports the agent, and passes otherwise. -/
theorem checkSuspension_run {out : Except PyExn Unit} (h : Py.Run checkSuspension s t out s') :
    Within [.connection, .suspension] t ∧ s'.request = s.request ∧
      s'.pep.opaUrl = s.pep.opaUrl ∧
      ((t.any (suspends s.request.agentId) = false ∧ out = .ok ()) ∨
        (t.any (suspends s.request.agentId) = true ∧
          ∃ reason, out =
            .error (.policyDenial s.request.action reason "pep.identity_suspended"))) := by
  simp only [checkSuspension, Py.run_read_bind] at h
  rw [Py.run_bind] at h
  rcases h with ⟨e, h, rfl⟩ | ⟨b, t₁, t₂, s₁, rfl, h₁, h₂⟩
  · obtain ⟨-, -, -, b, hb⟩ := getRedis_run h
    cases hb
  obtain ⟨hw, hr, hu, -⟩ := getRedis_run h₁
  have hn : t₁.any (suspends s.request.agentId) = false :=
    any_of_within (fun _ ↦ suspends_stage) hw (by decide)
  rw [within_append, List.any_append, hn, Bool.false_or]
  split at h₂
  · simp only [Py.run_handle, sismember, run_service_bind, cast_eq] at h₂
    rcases h₂ with ⟨a, ⟨b, t, rfl, hb⟩ | ⟨cls, -, he, -⟩, rfl⟩ |
      ⟨e, t, t', s₂, rfl, ⟨b, t, rfl, hb⟩ | ⟨cls, rfl, he, rfl⟩, h₃⟩
    · -- the server answered and the check passed
      split at hb
      · simp only [Py.run_raise] at hb
        cases hb.2.1
      · next hf =>
        simp only [Py.run_pure] at hb
        obtain ⟨rfl, -, rfl⟩ := hb
        simp only [Bool.not_eq_true] at hf
        subst hf
        exact ⟨⟨hw.mono (by decide), by simp [Call.stage]⟩, hr, hu, .inl ⟨by simp [suspends], rfl⟩⟩
    · cases he
    · -- the server answered and the check raised
      split at hb
      · next ht =>
        simp only [Py.run_raise, Except.error.injEq] at hb
        obtain ⟨rfl, rfl, rfl⟩ := hb
        simp only [Py.run_raise] at h₃
        obtain ⟨rfl, rfl, rfl⟩ := h₃
        subst ht
        exact ⟨⟨hw.mono (by decide), by simp [Call.stage]⟩, hr, hu,
          .inr ⟨by simp [suspends], _, rfl⟩⟩
      · simp only [Py.run_pure] at hb
        cases hb.2.1
    · -- the server failed, which is passed over
      cases he
      simp only [Py.run_pure] at h₃
      obtain ⟨rfl, rfl, rfl⟩ := h₃
      exact ⟨⟨hw.mono (by decide), by simp [Call.stage]⟩, hr, hu, .inl ⟨by simp [suspends], rfl⟩⟩
  · simp only [Py.run_pure] at h₂
    obtain ⟨rfl, rfl, rfl⟩ := h₂
    exact ⟨⟨hw.mono (by decide), within_nil _⟩, hr, hu, .inl ⟨rfl, rfl⟩⟩

/-- The calls of one counting: the clock, the increment, and the time to live of a new key. -/
inductive Counting (agentId : String) : List Event → Option Int → Prop where
  | failed (now : Nat) (cls : String) :
      Counting agentId [⟨.clock, now⟩,
        ⟨.redis (.incr (rateKey agentId (minuteBucket now))), .error cls⟩] none
  | next (now : Nat) (n : Int) (h : n ≠ 1) :
      Counting agentId [⟨.clock, now⟩,
        ⟨.redis (.incr (rateKey agentId (minuteBucket now))), .ok n⟩] (some n)
  | first (now : Nat) (b : Bool) :
      Counting agentId [⟨.clock, now⟩,
        ⟨.redis (.incr (rateKey agentId (minuteBucket now))), .ok 1⟩,
        ⟨.redis (.expire (rateKey agentId (minuteBucket now)) 120), .ok b⟩] (some 1)
  | unexpired (now : Nat) (cls : String) :
      Counting agentId [⟨.clock, now⟩,
        ⟨.redis (.incr (rateKey agentId (minuteBucket now))), .ok 1⟩,
        ⟨.redis (.expire (rateKey agentId (minuteBucket now)) 120), .error cls⟩] none

/-- A counting injects the count it answers. -/
theorem Counting.injected {agentId : String} {t : List Event} {count : Option Int}
    (h : Counting agentId t count) : injected t = count := by
  cases h with
  | next now n hn => simp [Pep.injected, List.findSome?_cons, increment?, hn]
  | _ => simp [Pep.injected, List.findSome?_cons, increment?, expires]

/-- Counting reads the clock and asks the counter. -/
theorem Counting.within {agentId : String} {t : List Event} {count : Option Int}
    (h : Counting agentId t count) : Within [.clock, .counter] t := by
  cases h <;> simp [Call.stage]

/-- The guarded part sets the count, or raises and leaves the request as it was. -/
theorem countAction_run {out : Except PyExn Unit} (h : Py.Run countAction s t out s') :
    ∃ count, Counting s.request.agentId t count ∧
      ((∃ n, count = some n ∧ out = .ok () ∧
          s' = { s with request := s.request.withCount n }) ∨
        (count = none ∧ s' = s ∧ ∃ e, out = .error e)) := by
  simp only [countAction, Py.run_read_bind, run_now_bind, incr, run_service_bind, cast_eq] at h
  obtain ⟨now, t', rfl, ⟨n, t'', rfl, h⟩ | ⟨cls, rfl, rfl, rfl⟩⟩ := h
  · split at h
    · next hn =>
      subst hn
      simp only [expire, run_service_bind, cast_eq, Py.run_update] at h
      obtain ⟨b, t₃, rfl, rfl, rfl, rfl⟩ | ⟨cls, rfl, rfl, rfl⟩ := h
      · exact ⟨_, .first now b, .inl ⟨1, rfl, rfl, rfl⟩⟩
      · exact ⟨_, .unexpired now cls, .inr ⟨rfl, rfl, _, rfl⟩⟩
    · next hn =>
      simp only [Py.run_update] at h
      obtain ⟨rfl, rfl, rfl⟩ := h
      exact ⟨_, .next now n hn, .inl ⟨n, rfl, rfl, rfl⟩⟩
  · exact ⟨_, .failed now cls, .inr ⟨rfl, rfl, _, rfl⟩⟩

/-- Counting never fails: it connects, counts, and injects the count that was answered. -/
theorem injectRateLimitCount_run {out : Except PyExn Unit}
    (h : Py.Run injectRateLimitCount s t out s') :
    out = .ok () ∧ s'.request = s.request.sent t ∧ s'.pep.opaUrl = s.pep.opaUrl ∧
      ∃ t₁ t₂, t = t₁ ++ t₂ ∧ Within [.connection] t₁ ∧
        (t₂ = [] ∨ ∃ count, Counting s.request.agentId t₂ count) := by
  rw [injectRateLimitCount, Py.run_bind] at h
  rcases h with ⟨e, h, rfl⟩ | ⟨b, t₁, t₂, s₁, rfl, h₁, h₂⟩
  · obtain ⟨-, -, -, b, hb⟩ := getRedis_run h
    cases hb
  obtain ⟨hw, hr, hu, -⟩ := getRedis_run h₁
  have hs : injected (t₁ ++ t₂) = injected t₂ := by
    simpa using injected_append (v := []) hw (within_nil _) (by decide)
  rw [ActionRequest.sent, hs, ← hr, ← hu]
  split at h₂
  · rw [Py.run_handle] at h₂
    rcases h₂ with ⟨u, h₂, rfl⟩ | ⟨e, t₃, t₄, s₂, rfl, h₂, h₃⟩
    · obtain ⟨count, hc, ⟨n, rfl, -, rfl⟩ | ⟨-, -, e, he⟩⟩ := countAction_run h₂
      · rw [hc.injected]
        exact ⟨rfl, rfl, rfl, _, _, rfl, hw, .inr ⟨_, hc⟩⟩
      · cases he
    · simp only [Py.run_pure] at h₃
      obtain ⟨rfl, rfl, rfl⟩ := h₃
      rw [List.append_nil]
      obtain ⟨count, hc, ⟨n, -, he, -⟩ | ⟨rfl, rfl, -⟩⟩ := countAction_run h₂
      · cases he
      · rw [hc.injected]
        exact ⟨rfl, rfl, rfl, _, _, rfl, hw, .inr ⟨_, hc⟩⟩
  · simp only [Py.run_pure] at h₂
    obtain ⟨rfl, rfl, rfl⟩ := h₂
    exact ⟨rfl, rfl, rfl, _, _, rfl, hw, .inl rfl⟩

/-- A decoded decision is the validated result. -/
theorem validate?_of_decodeDecision {v : Value} {decision : PolicyDecision}
    (h : decodeDecision (.ok (.obj [("result", v)])) = .ok decision) :
    PolicyDecision.validate? v = some decision := by
  have hd : ∀ x, PolicyDecision.validate? v = x →
      decodeDecision (.ok (.obj [("result", v)])) =
        x.elim (.error (.other "ValidationError")) .ok := by
    intro x hx
    cases x <;> simp [decodeDecision, subscriptResult, hx, Except.mapError, bind, Except.bind]
  rw [hd _ rfl] at h
  cases hx : PolicyDecision.validate? v with
  | none =>
    rw [hx] at h
    cases h
  | some d =>
    rw [hx] at h
    cases h
    rfl

/-- How an evaluation ends after a reply: unreachable engines and error statuses are denials,
a success is decoded. -/
def Evaluated (reply : HttpReply) (out : Except PyExn PolicyDecision) : Prop :=
  match reply with
  | .requestError => ∃ at', out =
      .ok (failClosed "Policy engine unreachable — fail-closed default" at')
  | .raised cls => out = .error (.other cls)
  | .response status body =>
    if isSuccess status then out = decodeDecision body
    else ∃ at', out = .ok (failClosed s!"Policy engine returned HTTP {status}" at')

/-- The body that is posted for a request. -/
def opaInput (request : ActionRequest) : Value := .obj [("input", request.dump)]

/-- The address that is posted to. -/
def opaAddress (pep : PolicyEnforcementPoint) : String := s!"{pep.opaUrl}/{opaPolicyPath}"

/-- An evaluation posts the request once, unless it cannot be written as JSON. -/
theorem evaluate_run {out : Except PyExn PolicyDecision} (h : Py.Run evaluate s t out s') :
    s' = s ∧
      (((opaInput s.request).isJson = false ∧ t = [] ∧ out = .error (.other "TypeError")) ∨
        ((opaInput s.request).isJson = true ∧ ∃ reply u,
          t = ⟨.post (opaAddress s.pep) (opaInput s.request), reply⟩ :: u ∧
            Within [.clock] u ∧ Evaluated reply out)) := by
  simp only [evaluate, Py.run_read_bind] at h
  split at h
  · next hj =>
    simp only [run_post_bind] at h
    obtain ⟨reply, u, rfl, h⟩ := h
    cases reply with
    | requestError =>
      simp only [run_now_bind, Py.run_pure] at h
      obtain ⟨now, u', rfl, rfl, rfl, rfl⟩ := h
      exact ⟨rfl, .inr ⟨hj, _, _, rfl, by simp [Call.stage], _, rfl⟩⟩
    | raised cls =>
      simp only [Py.run_raise] at h
      obtain ⟨rfl, rfl, rfl⟩ := h
      exact ⟨rfl, .inr ⟨hj, _, _, rfl, within_nil _, rfl⟩⟩
    | response status body =>
      simp only at h
      split at h
      · next hs =>
        simp only [Py.run_ofExcept] at h
        obtain ⟨rfl, rfl, rfl⟩ := h
        refine ⟨rfl, .inr ⟨hj, _, _, rfl, within_nil _, ?_⟩⟩
        rw [Evaluated, if_pos hs]
      · next hs =>
        simp only [run_now_bind, Py.run_pure] at h
        obtain ⟨now, u', rfl, rfl, rfl, rfl⟩ := h
        refine ⟨rfl, .inr ⟨hj, _, _, rfl, by simp [Call.stage], ?_⟩⟩
        rw [Evaluated, if_neg hs]
        exact ⟨_, rfl⟩
  · next hj =>
    simp only [Py.run_raise] at h
    obtain ⟨rfl, rfl, rfl⟩ := h
    exact ⟨rfl, .inl ⟨Bool.eq_false_iff.mpr hj, rfl, rfl⟩⟩

/-- The resource policy is asked about the actions it governs and permits the others. -/
theorem evaluateCedar_run {out : Except PyExn CedarDecision}
    (h : Py.Run evaluateCedar s t out s') :
    s' = s ∧
      ((inferCedarResourceType s.request.action = none ∧ t = [] ∧
          out = .ok ⟨true, "not-cedar-governed"⟩) ∨
        ∃ resourceType reply, inferCedarResourceType s.request.action = some resourceType ∧
          t = [⟨.cedar (cedarRequest s.request resourceType), reply⟩] ∧
            out = reply.mapError .other) := by
  simp only [evaluateCedar, Py.run_read_bind] at h
  cases hi : inferCedarResourceType s.request.action with
  | none =>
    simp only [hi, Py.run_pure] at h
    obtain ⟨rfl, rfl, rfl⟩ := h
    exact ⟨rfl, .inl ⟨rfl, rfl, rfl⟩⟩
  | some resourceType =>
    simp only [hi, cedar, run_service, cast_eq] at h
    obtain ⟨reply, rfl, rfl, rfl⟩ := h
    exact ⟨rfl, .inr ⟨_, reply, rfl, rfl, rfl⟩⟩

/-- The calls of one queueing, with the exception that stopped it. -/
inductive Queueing (rt : Runtime) (request : ActionRequest) (decision : PolicyDecision) :
    List Event → Except PyExn String → Prop where
  | clientFailed (requestId cls : String) :
      Queueing rt request decision [⟨.uuid4, requestId⟩, ⟨.approvalClient, .error cls⟩]
        (.error (.other cls))
  | ttlFailed (requestId : String) (now : Nat) (cls : String) :
      Queueing rt request decision [⟨.uuid4, requestId⟩, ⟨.approvalClient, .ok ()⟩,
        ⟨.clock, now⟩, ⟨.approvalTtl, .error cls⟩] (.error (.other cls))
  | written (requestId : String) (now : Nat) (ttl : Int) (reply : Except String Unit) :
      Queueing rt request decision [⟨.uuid4, requestId⟩, ⟨.approvalClient, .ok ()⟩,
        ⟨.clock, now⟩, ⟨.approvalTtl, .ok ttl⟩,
        ⟨.redis (.setex s!"approval:{requestId}" ttl (Python.strDict rt
          (approvalData request decision requestId (Python.isoformat now)))), reply⟩]
        ((reply.mapError .other).map fun _ ↦ requestId)

/-- Queueing writes one record, or stops at the first call that raises. -/
theorem queueApproval_run {decision : PolicyDecision} {out : Except PyExn String}
    (h : Py.Run (queueApproval rt decision) s t out s') :
    s' = s ∧ Queueing rt s.request decision t out := by
  simp only [queueApproval, Py.run_read_bind, run_uuid4_bind, run_now_bind, approvalClient,
    approvalTtl, setex, run_service_bind, cast_eq, Py.run_pure] at h
  obtain ⟨requestId, u, rfl, ⟨_, u, rfl, now, u, rfl, ⟨ttl, u, rfl, h⟩ | ⟨cls, rfl, rfl, rfl⟩⟩ |
    ⟨cls, rfl, rfl, rfl⟩⟩ := h
  · obtain ⟨_, u, rfl, rfl, rfl, rfl⟩ | ⟨cls, rfl, rfl, rfl⟩ := h
    · exact ⟨rfl, .written requestId now ttl (.ok ())⟩
    · exact ⟨rfl, .written requestId now ttl (.error cls)⟩
  · exact ⟨rfl, .ttlFailed requestId now cls⟩
  · exact ⟨rfl, .clientFailed requestId cls⟩

/-! ### Enforcement -/

/-- The calls before the policy engine is asked, of a request that passes the address and the
suspension check: at most one counting comes last. -/
structure Admitted (s : State) (t : List Event) : Prop where
  bound : IpBound s.request
  counted : ∃ u v, t = u ++ v ∧ Within [.connection, .suspension] u ∧
    (v = [] ∨ ∃ count, Counting s.request.agentId v count)
  unsuspended : t.any (suspends s.request.agentId) = false

/-- The stages before the policy engine. -/
theorem Admitted.within {s : State} {t : List Event} (h : Admitted s t) :
    Within [.connection, .suspension, .clock, .counter] t := by
  obtain ⟨u, v, rfl, hu, rfl | ⟨count, hv⟩⟩ := h.counted
  · rw [List.append_nil]
    exact hu.mono (by decide)
  · exact (within_append ..).mpr ⟨hu.mono (by decide), hv.within.mono (by decide)⟩

/-- What follows a decision: a denial, an approval request, or the resource policy. -/
inductive Acted (rt : Runtime) (request : ActionRequest) (decision : PolicyDecision) :
    List Event → Except PyExn Unit → Prop where
  | deny (h : decision.effect = .deny) :
      Acted rt request decision []
        (.error (.policyDenial request.action decision.reason decision.policyRef))
  | ungoverned (h : decision.effect = .allow)
      (hg : inferCedarResourceType request.action = none) : Acted rt request decision [] (.ok ())
  | resource (h : decision.effect = .allow) (resourceType : String)
      (hg : inferCedarResourceType request.action = some resourceType) (d : CedarDecision) :
      Acted rt request decision [⟨.cedar (cedarRequest request resourceType), .ok d⟩]
        (if d.permitted then .ok () else .error (.policyDenial request.action
          s!"Cedar resource policy denied: {d.reason}" "nhi.cedar.resource_policy"))
  | resourceFailed (h : decision.effect = .allow) (resourceType : String)
      (hg : inferCedarResourceType request.action = some resourceType) (cls : String) :
      Acted rt request decision [⟨.cedar (cedarRequest request resourceType), .error cls⟩]
        (.error (.other cls))
  | queued (h : decision.effect = .requireApproval) {t : List Event} {requestId : String}
      (hq : Queueing rt request decision t (.ok requestId)) :
      Acted rt request decision t
        (.error (.approvalRequired request.action request.resourceArn requestId))
  | queueFailed (h : decision.effect = .requireApproval) {t : List Event} {e : PyExn}
      (hq : Queueing rt request decision t (.error e)) : Acted rt request decision t (.error e)

/-- The runs of an enforcement, by the layer that ends them. -/
inductive Enforced (rt : Runtime) (s : State) : List Event → Except PyExn Unit → Prop where
  | unbound (hb : ¬ IpBound s.request) (ip : Value) (hip : tokenIp s.request = .ok ip)
      (reason : String) :
      Enforced rt s [] (.error (.policyDenial s.request.action reason "pep.ip_binding"))
  | illTyped (e : PyExn) (hip : tokenIp s.request = .error e) :
      Enforced rt s [] (.error (.other "AttributeError"))
  | suspended (hb : IpBound s.request) {t : List Event} (hw : Within [.connection, .suspension] t)
      (hs : t.any (suspends s.request.agentId) = true) (reason : String) :
      Enforced rt s t (.error (.policyDenial s.request.action reason "pep.identity_suspended"))
  | unserializable {t : List Event} (ha : Admitted s t)
      (hj : (opaInput (s.request.sent t)).isJson = false) :
      Enforced rt s t (.error (.other "TypeError"))
  | unevaluated {t u : List Event} (ha : Admitted s t)
      (hj : (opaInput (s.request.sent t)).isJson = true) (reply : HttpReply) (e : PyExn)
      (hr : Evaluated reply (.error e)) (hu : Within [.clock] u) :
      Enforced rt s (t ++ ⟨.post (opaAddress s.pep) (opaInput (s.request.sent t)), reply⟩ :: u)
        (.error e)
  | evaluated {t u v : List Event} (ha : Admitted s t)
      (hj : (opaInput (s.request.sent t)).isJson = true) (reply : HttpReply)
      (decision : PolicyDecision) (hr : Evaluated reply (.ok decision)) (hu : Within [.clock] u)
      {out : Except PyExn Unit} (hd : Acted rt (s.request.sent t) decision v out) :
      Enforced rt s
        (t ++ ⟨.post (opaAddress s.pep) (opaInput (s.request.sent t)), reply⟩ :: (u ++ v)) out

/-- Acting on a decision takes the branch of its effect. -/
theorem actOn_run {decision : PolicyDecision} {out : Except PyExn Unit}
    (h : Py.Run (actOn rt decision) s t out s') : Acted rt s.request decision t out := by
  simp only [actOn, Py.run_read_bind] at h
  cases he : decision.effect with
  | allow =>
    simp only [he, Py.run_bind] at h
    rcases h with ⟨e, h, rfl⟩ | ⟨d, t₁, t₂, s₁, rfl, h₁, h₂⟩
    · obtain ⟨-, ⟨-, -, hx⟩ | ⟨resourceType, reply, hi, rfl, hx⟩⟩ := evaluateCedar_run h
      · cases hx
      · cases reply with
        | ok d => cases hx
        | error cls =>
          cases hx
          exact .resourceFailed he resourceType hi cls
    · obtain ⟨rfl, ⟨hi, rfl, hx⟩ | ⟨resourceType, reply, hi, rfl, hx⟩⟩ := evaluateCedar_run h₁
      · cases hx
        simp only [Py.run_pure, if_true] at h₂
        obtain ⟨rfl, rfl, -⟩ := h₂
        exact .ungoverned he hi
      · cases reply with
        | ok d' =>
          cases hx
          have hr : Acted rt _ decision _ _ := .resource he resourceType hi d
          split at h₂
          · next hp =>
            simp only [Py.run_pure] at h₂
            obtain ⟨rfl, rfl, -⟩ := h₂
            rwa [if_pos hp] at hr
          · next hp =>
            simp only [Py.run_raise] at h₂
            obtain ⟨rfl, rfl, -⟩ := h₂
            rwa [if_neg hp] at hr
        | error cls => cases hx
  | requireApproval =>
    simp only [he, Py.run_bind, Py.run_raise] at h
    rcases h with ⟨e, h, rfl⟩ | ⟨requestId, t₁, t₂, s₁, rfl, h₁, rfl, rfl, -⟩
    · exact .queueFailed he (queueApproval_run h).2
    · rw [List.append_nil]
      exact .queued he (queueApproval_run h₁).2
  | deny =>
    simp only [he, Py.run_raise] at h
    obtain ⟨rfl, rfl, -⟩ := h
    exact .deny he

/-- Every run of an enforcement is one of these. -/
theorem enforce_run {out : Except PyExn Unit} (h : Py.Run (enforce rt) s t out s') :
    Enforced rt s t out := by
  rw [enforce, Py.run_bind] at h
  rcases h with ⟨e, h, rfl⟩ | ⟨_, t₁, t, s₁, rfl, h₁, h⟩
  · obtain ⟨rfl, rfl, ⟨-, he⟩ | ⟨hb, ⟨⟨ip, hip⟩, reason, he⟩ | ⟨⟨e', hip⟩, he⟩⟩⟩ :=
      checkIpBinding_run h
    · cases he
    · cases he
      exact .unbound hb ip hip reason
    · cases he
      exact .illTyped e' hip
  obtain ⟨rfl, rfl, ⟨hb, -⟩ | ⟨-, ⟨-, reason, he⟩ | ⟨-, he⟩⟩⟩ := checkIpBinding_run h₁
  rotate_left
  · cases he
  · cases he
  -- the request passed the address check
  rw [List.nil_append]
  rw [Py.run_bind] at h
  rcases h with ⟨e, h, rfl⟩ | ⟨_, t₁, t, s₂, rfl, h₁, h⟩
  · obtain ⟨hw, -, -, ⟨-, he⟩ | ⟨hs, reason, he⟩⟩ := checkSuspension_run h
    · cases he
    · cases he
      exact .suspended hb hw hs reason
  obtain ⟨hw₁, hr₁, hu₁, ⟨hs, -⟩ | ⟨-, reason, he⟩⟩ := checkSuspension_run h₁
  rotate_left
  · cases he
  rw [Py.run_bind] at h
  rcases h with ⟨e, h, rfl⟩ | ⟨_, t₂, t, s₃, rfl, h₂, h⟩
  · cases (injectRateLimitCount_run h).1
  obtain ⟨-, hr₂, hu₂, hc⟩ := injectRateLimitCount_run h₂
  -- the request passed both checks and was counted
  have hw₂ : Within [.connection, .clock, .counter] t₂ := by
    obtain ⟨u, v, rfl, hu, rfl | ⟨count, hv⟩⟩ := hc
    · rw [List.append_nil]
      exact hu.mono (by decide)
    · exact (within_append ..).mpr ⟨hu.mono (by decide), hv.within.mono (by decide)⟩
  have ha : Admitted s₁ (t₁ ++ t₂) := by
    obtain ⟨u, v, rfl, hu, hv⟩ := hc
    rw [hr₁] at hv
    refine ⟨hb, ⟨t₁ ++ u, v, (List.append_assoc ..).symm,
      (within_append ..).mpr ⟨hw₁, hu.mono (by decide)⟩, hv⟩, ?_⟩
    rw [List.any_append, hs, any_of_within (fun _ ↦ suspends_stage) hw₂ (by decide)]
    rfl
  have hq : s₃.request = s₁.request.sent (t₁ ++ t₂) := by
    rw [hr₂, hr₁, ActionRequest.sent, ActionRequest.sent]
    have hi := injected_append (u := t₂) (v := []) hw₁ (within_nil _) (by decide)
    rw [List.append_nil] at hi
    rw [hi]
  have hp : opaAddress s₃.pep = opaAddress s₁.pep := by
    rw [opaAddress, opaAddress, hu₂, hu₁]
  rw [← List.append_assoc]
  rw [Py.run_bind] at h
  rcases h with ⟨e, h, rfl⟩ | ⟨decision, t₃, t₄, s₄, rfl, h₃, h₄⟩
  · obtain ⟨-, ⟨hj, rfl, he⟩ | ⟨hj, reply, u, rfl, hu, he⟩⟩ := evaluate_run h
    · cases he
      rw [hq] at hj
      rw [List.append_nil]
      exact .unserializable ha hj
    · rw [hq] at hj ⊢
      rw [hp]
      exact .unevaluated ha hj reply e he hu
  · obtain ⟨rfl, ⟨-, -, he⟩ | ⟨hj, reply, u, rfl, hu, he⟩⟩ := evaluate_run h₃
    · cases he
    · have hd := actOn_run h₄
      rw [hq] at hj hd ⊢
      rw [hp, List.cons_append]
      exact .evaluated ha hj reply decision he hu hd

end

end NhiSentinel.Pep
