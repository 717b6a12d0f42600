import NhiSentinel.Base.Program
import NhiSentinel.Base.Python
import NhiSentinel.Base.Redis
import NhiSentinel.Pep.Models

/-!
# The identity API

The endpoints of `identity/api.py` that suspend and reinstate an agent, as programs over the
Redis server that the enforcement points read, and what they do to its set of suspended
agents.
-/

namespace NhiSentinel.Identity
open NhiSentinel.Base NhiSentinel.Pep

/-- `_SUSPENDED_KEY`, `api.py:36`. -/
def suspendedKey : String := "identities:suspended"

/-- The key of the reason for a suspension, `_REASON_KEY_PREFIX` at `api.py:37`. -/
def reasonKey (agentId : String) : String := "identity:suspension_reason:" ++ agentId

/-- `SuspendRequest`, `api.py:48`. -/
structure SuspendRequest where
  reason : String
  suspendedAt : Option String

/-- `SuspendRequest.model_validate`. -/
def SuspendRequest.validate? (v : Value) : Option SuspendRequest := do
  let reason ← validateStr (← v.get? "reason")
  let suspendedAt ← validateStrOrNone (v.get? "suspended_at")
  return { reason, suspendedAt }

/-- The counters of the service, `api.py:39`. -/
structure IdentityApi where
  suspensionsTotal : Nat
  unsuspensionsTotal : Nat

/-- `HTTPException`, a request body that is not valid, and the exceptions of the libraries by
class name. -/
inductive ApiExn where
  | http (statusCode : Nat) (detail : String)
  | invalid
  | other (cls : String)

/-- The calls that leave the service. -/
inductive ApiCall where
  /-- `redis.from_url`, `api.py:45`. -/
  | client
  | redis (c : Redis.Command)
  | clock

/-- What a call is answered. -/
@[reducible] def ApiCall.Reply : ApiCall → Type
  | client => Except String Unit
  | redis c => Except String c.Reply
  | clock => Nat

/-- A call together with its reply. -/
abbrev ApiEvent := Sigma ApiCall.Reply

/-- An endpoint of the service. -/
abbrev Endpoint := Py IdentityApi ApiExn ApiCall ApiCall.Reply

/-- Call the environment. -/
def ask (c : ApiCall) : Endpoint c.Reply := Py.ask c

/-- `_get_redis`, `api.py:43`. -/
def getRedis : Endpoint Unit :=
  ask .client >>= fun (reply : Except String Unit) ↦ Py.ofExcept (reply.mapError .other)

/-- A command to the server. -/
def redis (c : Redis.Command) : Endpoint c.Reply :=
  ask (.redis c) >>= fun (reply : Except String c.Reply) ↦ Py.ofExcept (reply.mapError .other)

/-- What an endpoint does with Redis: every exception is a 503. -/
def guarded {α : Type} (m : Endpoint α) : Endpoint α :=
  Py.handle m fun _ ↦ Py.raise (.http 503 "Redis unavailable")

/-- The time that a request gives, or the present one, `api.py:67`. -/
def suspensionTime (req : SuspendRequest) : Endpoint String :=
  match req.suspendedAt.filter (· ≠ "") with
  | some suspendedAt => pure suspendedAt
  | none => do
    let now : Nat ← ask .clock
    pure (Python.isoformat now)

/-- The guarded part of `suspend_identity`, `api.py:65–68`: how many agents were added, and since
when the agent is suspended. -/
def markSuspended (agentId : String) (req : SuspendRequest) : Endpoint (Nat × String) := do
  getRedis
  let added ← redis (.sadd suspendedKey agentId)
  let suspendedAt ← suspensionTime req
  redis (.set (reasonKey agentId) s!"{suspendedAt}|{req.reason}")
  pure (added, suspendedAt)

/-- `suspend_identity`, `api.py:62`. -/
def suspendIdentity (agentId : String) (req : SuspendRequest) : Endpoint Value := do
  let (added, suspendedAt) ← guarded (markSuspended agentId req)
  if added ≠ 0 then
    Py.update fun api ↦ { api with suspensionsTotal := api.suspensionsTotal + 1 }
  pure (.obj [
    ("agent_id", .str agentId),
    ("status", .str "SUSPENDED"),
    ("newly_suspended", .bool (added ≠ 0)),
    ("reason", .str req.reason),
    ("suspended_at", .str suspendedAt)])

/-- The guarded part of `unsuspend_identity`, `api.py:89–91`: how many agents were removed. -/
def unmarkSuspended (agentId : String) : Endpoint Nat := do
  getRedis
  let removed ← redis (.srem suspendedKey agentId)
  let _ ← redis (.del (reasonKey agentId))
  pure removed

/-- `unsuspend_identity`, `api.py:86`. -/
def unsuspendIdentity (agentId : String) : Endpoint Value := do
  let removed ← guarded (unmarkSuspended agentId)
  if removed = 0 then Py.raise (.http 404 s!"{agentId} was not suspended")
  else do
    Py.update fun api ↦ { api with unsuspensionsTotal := api.unsuspensionsTotal + 1 }
    pure (.obj [("agent_id", .str agentId), ("status", .str "ACTIVE")])

/-- The request to suspend an agent with its body: one that is not valid is a 422. -/
def postSuspend (agentId : String) (body : Value) : Endpoint Value :=
  match SuspendRequest.validate? body with
  | some req => suspendIdentity agentId req
  | none => Py.raise .invalid

/-- The status that an endpoint answers with. -/
def status {α : Type} : Except ApiExn α → Nat
  | .ok _ => 200
  | .error (.http statusCode _) => statusCode
  | .error .invalid => 422
  | .error (.other _) => 500

/-! ### Runs -/

/-- No command of the calls is on the set of suspended agents. -/
def Elsewhere (t : List ApiEvent) : Prop :=
  ∀ c reply, ⟨.redis c, reply⟩ ∈ t → c.key ≠ suspendedKey

/-- The calls of an endpoint: a command, and others that leave the set of suspended agents
alone; none where there is no client. -/
inductive Leads (c : Redis.Command) : List ApiEvent → Prop where
  | unconnected (cls : String) : Leads c [⟨.client, .error cls⟩]
  | sent (reply : Except String c.Reply) (u : List ApiEvent) (hu : Elsewhere u) :
      Leads c (⟨.client, .ok ()⟩ :: ⟨.redis c, reply⟩ :: u)

/-- Two traces that leave the set of suspended agents alone, one after the other. -/
theorem Elsewhere.append {t u : List ApiEvent} (ht : Elsewhere t) (hu : Elsewhere u) :
    Elsewhere (t ++ u) := by
  intro c reply h
  rcases List.mem_append.mp h with h | h
  · exact ht c reply h
  · exact hu c reply h

/-- A command under another key leaves the set of suspended agents alone. -/
theorem Elsewhere.singleton {c : Redis.Command} {reply : Except String c.Reply}
    (h : c.key ≠ suspendedKey) : Elsewhere [⟨.redis c, reply⟩] := by
  intro c' reply' hm
  cases List.mem_singleton.mp hm
  exact h

/-- The key of a reason is not that of the set. -/
theorem reasonKey_ne (agentId : String) : reasonKey agentId ≠ suspendedKey := by
  intro h
  have ht : "identity:suspension_reason:".toList ++ agentId.toList = suspendedKey.toList :=
    String.toList_append.symm.trans (congrArg String.toList h)
  -- they differ in the eighth character
  have hs := congrArg (List.take 8) ht
  rw [List.take_append_of_le_length (by simp)] at hs
  exact absurd hs (by decide +kernel)

section
variable {agentId : String} {req : SuspendRequest} {api api' : IdentityApi} {t u : List ApiEvent}

/-- The client is there, or its exception ends the endpoint. -/
theorem run_getRedis_bind {α : Type} {f : Unit → Endpoint α} {out : Except ApiExn α} :
    Py.Run (getRedis >>= f) api t out api' ↔
      (∃ t', t = ⟨.client, .ok ()⟩ :: t' ∧ Py.Run (f ()) api t' out api') ∨
        ∃ cls, t = [⟨.client, .error cls⟩] ∧ out = .error (.other cls) ∧ api' = api := by
  rw [getRedis, ask, Py.run_ask_bind_bind]
  simp only [Py.run_ofExcept_bind]
  constructor
  · rintro ⟨reply, t', rfl, h⟩
    cases reply with
    | ok u =>
      rcases h with ⟨a, -, h⟩ | ⟨e, he, -⟩
      · exact .inl ⟨t', rfl, h⟩
      · cases he
    | error cls => simp_all [Except.mapError]
  · rintro (⟨t', rfl, h⟩ | ⟨cls, rfl, rfl, rfl⟩)
    · exact ⟨_, _, rfl, .inl ⟨(), rfl, h⟩⟩
    · exact ⟨_, _, rfl, .inr ⟨_, rfl, rfl, rfl, rfl⟩⟩

/-- A command succeeds, or its exception ends the endpoint. -/
theorem run_redis_bind {α : Type} {c : Redis.Command} {f : c.Reply → Endpoint α}
    {out : Except ApiExn α} :
    Py.Run (redis c >>= f) api t out api' ↔
      (∃ a t', t = ⟨.redis c, .ok a⟩ :: t' ∧ Py.Run (f a) api t' out api') ∨
        ∃ cls, t = [⟨.redis c, .error cls⟩] ∧ out = .error (.other cls) ∧ api' = api := by
  rw [redis, ask, Py.run_ask_bind_bind]
  simp only [Py.run_ofExcept_bind]
  constructor
  · rintro ⟨reply, t', rfl, h⟩
    cases reply <;> simp_all [Except.mapError]
  · rintro (⟨a, t', rfl, h⟩ | ⟨cls, rfl, rfl, rfl⟩)
    · exact ⟨_, _, rfl, .inl ⟨a, rfl, h⟩⟩
    · exact ⟨_, _, rfl, .inr ⟨_, rfl, rfl, rfl, rfl⟩⟩

/-- The calls of a guarded part are those of the part. -/
theorem guarded_run {α : Type} {m : Endpoint α} {out : Except ApiExn α}
    (h : Py.Run (guarded m) api t out api') :
    ∃ out' api'', Py.Run m api t out' api'' := by
  rw [guarded, Py.run_handle] at h
  rcases h with ⟨a, h, -⟩ | ⟨e, t₁, t₂, s₁, rfl, h₁, h₂⟩
  · exact ⟨_, _, h⟩
  · rw [Py.run_raise] at h₂
    obtain ⟨rfl, -, -⟩ := h₂
    rw [List.append_nil]
    exact ⟨_, _, h₁⟩

/-- The time of a suspension is read at most from the clock. -/
theorem suspensionTime_run {out : Except ApiExn String}
    (h : Py.Run (suspensionTime req) api t out api') : Elsewhere t := by
  unfold suspensionTime at h
  split at h
  · obtain ⟨rfl, -, -⟩ := Py.run_pure.mp h
    exact nofun
  · obtain ⟨now, _, rfl, h₁⟩ := Py.run_ask_bind.mp h
    obtain ⟨rfl, -, -⟩ := Py.run_pure.mp h₁
    simp [Elsewhere]

private theorem markSuspended_run {out : Except ApiExn (Nat × String)}
    (h : Py.Run (markSuspended agentId req) api t out api') :
    Leads (.sadd suspendedKey agentId) t := by
  have hr := reasonKey_ne agentId
  rcases run_getRedis_bind.mp h with ⟨_, rfl, h₁⟩ | ⟨cls, rfl, -⟩
  · rcases run_redis_bind.mp h₁ with ⟨added, u, rfl, h₂⟩ | ⟨cls, rfl, -⟩
    · refine .sent _ _ ?_
      rcases Py.run_bind.mp h₂ with ⟨e, h₃, -⟩ | ⟨suspendedAt, u₁, u₂, _, rfl, h₃, h₄⟩
      · exact suspensionTime_run h₃
      · refine (suspensionTime_run h₃).append ?_
        rcases run_redis_bind.mp h₄ with ⟨_, _, rfl, h₅⟩ | ⟨cls, rfl, -⟩
        · obtain ⟨rfl, -, -⟩ := Py.run_pure.mp h₅
          exact .singleton hr
        · exact .singleton hr
    · exact .sent _ _ nofun
  · exact .unconnected cls

private theorem unmarkSuspended_run {out : Except ApiExn Nat}
    (h : Py.Run (unmarkSuspended agentId) api t out api') :
    Leads (.srem suspendedKey agentId) t := by
  have hr := reasonKey_ne agentId
  rcases run_getRedis_bind.mp h with ⟨_, rfl, h₁⟩ | ⟨cls, rfl, -⟩
  · rcases run_redis_bind.mp h₁ with ⟨removed, u, rfl, h₂⟩ | ⟨cls, rfl, -⟩
    · refine .sent _ _ ?_
      rcases run_redis_bind.mp h₂ with ⟨_, _, rfl, h₃⟩ | ⟨cls, rfl, -⟩
      · obtain ⟨rfl, -, -⟩ := Py.run_pure.mp h₃
        exact .singleton hr
      · exact .singleton hr
    · exact .sent _ _ nofun
  · exact .unconnected cls

/-- A suspension leads with `SADD`. -/
theorem suspendIdentity_run {out : Except ApiExn Value}
    (h : Py.Run (suspendIdentity agentId req) api t out api') :
    Leads (.sadd suspendedKey agentId) t := by
  rcases Py.run_bind.mp h with ⟨e, h, -⟩ | ⟨⟨added, suspendedAt⟩, t₁, t₂, s₁, rfl, h₁, h₂⟩
  · obtain ⟨_, _, h⟩ := guarded_run h
    exact markSuspended_run h
  · have ht : t₂ = [] := by
      by_cases ha : added = 0 <;> simp [ha] at h₂ <;> exact h₂.1
    obtain ⟨_, _, h⟩ := guarded_run h₁
    rw [ht, List.append_nil]
    exact markSuspended_run h

/-- A reinstatement leads with `SREM`. -/
theorem unsuspendIdentity_run {out : Except ApiExn Value}
    (h : Py.Run (unsuspendIdentity agentId) api t out api') :
    Leads (.srem suspendedKey agentId) t := by
  rcases Py.run_bind.mp h with ⟨e, h, -⟩ | ⟨removed, t₁, t₂, s₁, rfl, h₁, h₂⟩
  · obtain ⟨_, _, h⟩ := guarded_run h
    exact unmarkSuspended_run h
  · have ht : t₂ = [] := by
      by_cases hr : removed = 0 <;> simp [hr] at h₂ <;> exact h₂.1
    obtain ⟨_, _, h⟩ := guarded_run h₁
    rw [ht, List.append_nil]
    exact unmarkSuspended_run h

/-- A request to suspend leads with `SADD`; one that is not valid makes no call. -/
theorem postSuspend_run {body : Value} {out : Except ApiExn Value}
    (h : Py.Run (postSuspend agentId body) api t out api') :
    Leads (.sadd suspendedKey agentId) t ∨ SuspendRequest.validate? body = none ∧ t = [] := by
  unfold postSuspend at h
  split at h
  · exact .inl (suspendIdentity_run h)
  · next hv => exact .inr ⟨hv, (Py.run_raise.mp h).1⟩

end

/-! ### On a server -/

/-- The commands of the calls are sent to a server one after the other. -/
inductive Served : Redis.Store → List ApiEvent → Redis.Store → Prop where
  | nil (st : Redis.Store) : Served st [] st
  | client (reply : Except String Unit) {st st' : Redis.Store} {t : List ApiEvent}
      (hs : Served st t st') : Served st (⟨.client, reply⟩ :: t) st'
  | clock (now : Nat) {st st' : Redis.Store} {t : List ApiEvent}
      (hs : Served st t st') : Served st (⟨.clock, now⟩ :: t) st'
  | redis (now : Nat) {c : Redis.Command} {reply : Except String c.Reply}
      {st st₁ st' : Redis.Store} {t : List ApiEvent} (hc : Redis.Sent now st c reply st₁)
      (hs : Served st₁ t st') : Served st (⟨.redis c, reply⟩ :: t) st'

/-- Redis answers every call. -/
def Answered (t : List ApiEvent) : Prop :=
  (∀ reply, ⟨.client, reply⟩ ∈ t → reply = .ok ()) ∧
    ∀ c reply, ⟨.redis c, reply⟩ ∈ t → ∃ a, reply = .ok a

section
variable {st st' : Redis.Store} {t : List ApiEvent} {xs : List String}

private theorem Served.eq_of_elsewhere (hs : Served st t st') (h : Elsewhere t) :
    st' suspendedKey = st suspendedKey := by
  induction hs with
  | nil => rfl
  | client reply _ ih | clock now _ ih => exact ih fun c r hm ↦ h c r (List.mem_cons_of_mem _ hm)
  | redis _ hc _ ih =>
    rw [ih fun c r hm ↦ h c r (List.mem_cons_of_mem _ hm)]
    exact hc.of_ne (h _ _ List.mem_cons_self).symm

/-- What the first command does to the set is what the endpoint does. -/
theorem Leads.served {c : Redis.Command} {agentId : String} {P : List String → Prop}
    (hl : Leads c t) (hs : Served st t st') (hk : Redis.HoldsSet st suspendedKey xs)
    (hc : ∀ {now reply st₁}, Redis.Sent now st c reply st₁ →
      ∃ ys, Redis.HoldsSet st₁ suspendedKey ys ∧ (∀ x, x ≠ agentId → (x ∈ ys ↔ x ∈ xs)) ∧
        ((∃ a, reply = .ok a) → P ys)) :
    ∃ ys, Redis.HoldsSet st' suspendedKey ys ∧ (∀ x, x ≠ agentId → (x ∈ ys ↔ x ∈ xs)) ∧
      (Answered t → P ys) := by
  cases hl with
  | unconnected cls =>
    cases hs with
    | client _ hs =>
      cases hs
      exact ⟨xs, hk, fun _ _ ↦ Iff.rfl, fun ha ↦ nomatch ha.1 _ List.mem_cons_self⟩
  | sent reply u hu =>
    cases hs with
    | client _ hs =>
      cases hs with
      | redis _ hr hs =>
        obtain ⟨ys, hy, hx, hp⟩ := hc hr
        exact ⟨ys, hy.congr (hs.eq_of_elsewhere hu), hx,
          fun ha ↦ hp (ha.2 _ _ (List.mem_cons_of_mem _ List.mem_cons_self))⟩

/-- A suspension that Redis answers adds the agent, and no other. -/
theorem Leads.suspended {agentId : String} (hl : Leads (.sadd suspendedKey agentId) t)
    (hs : Served st t st') (hk : Redis.HoldsSet st suspendedKey xs) :
    ∃ ys, Redis.HoldsSet st' suspendedKey ys ∧ (∀ x, x ≠ agentId → (x ∈ ys ↔ x ∈ xs)) ∧
      (Answered t → agentId ∈ ys) :=
  hl.served hs hk fun hr ↦ hk.sent_sadd hr

/-- A reinstatement that Redis answers removes the agent, and no other. -/
theorem Leads.reinstated {agentId : String} (hl : Leads (.srem suspendedKey agentId) t)
    (hs : Served st t st') (hk : Redis.HoldsSet st suspendedKey xs) :
    ∃ ys, Redis.HoldsSet st' suspendedKey ys ∧ (∀ x, x ≠ agentId → (x ∈ ys ↔ x ∈ xs)) ∧
      (Answered t → agentId ∉ ys) :=
  hl.served hs hk fun hr ↦ hk.sent_srem hr

end

end NhiSentinel.Identity
