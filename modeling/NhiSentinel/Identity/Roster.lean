import Mathlib.Data.List.Sort
import NhiSentinel.Identity.Interleaving

/-!
# The identity API as a roster

All endpoints of `identity/api.py`, request by request on one Redis server that is there for a
request or is not. They answer as a roster of the suspended agents does, which counts each
suspension and each reinstatement.
-/

namespace NhiSentinel.Identity
open NhiSentinel.Base NhiSentinel.Pep

/-! ### The other endpoints -/

/-- The guarded part of `identity_status`, `api.py:107–109`. -/
def readSuspension (agentId : String) : Endpoint (Bool × Option String) := do
  getRedis
  let isSuspended : Bool ← redis (.sismember suspendedKey agentId)
  if isSuspended then do
    let reasonBlob : Option String ← redis (.get (reasonKey agentId))
    pure (isSuspended, reasonBlob)
  else pure (isSuspended, none)

/-- `identity_status`, `api.py:105`. -/
def identityStatus (agentId : String) : Endpoint Value := do
  let (isSuspended, reasonBlob) ← guarded (readSuspension agentId)
  pure (.obj [
    ("agent_id", .str agentId),
    ("status", .str (if isSuspended then "SUSPENDED" else "ACTIVE")),
    ("reason", (reasonBlob.map Value.str).getD .null)])

/-- `sorted` on texts. -/
def sorted (xs : List String) : List String := xs.insertionSort (· ≤ ·)

/-- `list_suspended`, `api.py:122`. -/
def listSuspended : Endpoint Value := do
  let members ← guarded do
    getRedis
    let members : List String ← redis (.smembers suspendedKey)
    pure (sorted members)
  pure (.obj [("count", .int members.length), ("agents", .arr (members.map .str))])

/-- The calls of `metrics`. -/
inductive MetricsCall where
  | client
  | scard (key : String)

/-- What the surroundings answer. -/
@[reducible] def MetricsCall.Reply : MetricsCall → Type
  | client => Except String Unit
  | scard _ => Except String Nat

/-- What `metrics` writes, `api.py:140`. -/
def exposition (api : IdentityApi) (currentCount : Nat) : String :=
  "\n".intercalate [
    "# HELP nhi_suspensions_total Total identity suspension events",
    "# TYPE nhi_suspensions_total counter",
    s!"nhi_suspensions_total {api.suspensionsTotal}",
    "# HELP nhi_unsuspensions_total Total identity reinstatement events",
    "# TYPE nhi_unsuspensions_total counter",
    s!"nhi_unsuspensions_total {api.unsuspensionsTotal}",
    "# HELP nhi_identities_suspended_current Currently suspended identities",
    "# TYPE nhi_identities_suspended_current gauge",
    s!"nhi_identities_suspended_current {currentCount}"] ++ "\n"

/-- The guarded part of `metrics`, `api.py:135–136`. -/
def countSuspended : Py IdentityApi ApiExn MetricsCall MetricsCall.Reply Nat := do
  let client : Except String Unit ← Py.ask MetricsCall.client
  Py.ofExcept (client.mapError .other)
  let count : Except String Nat ← Py.ask (MetricsCall.scard suspendedKey)
  Py.ofExcept (count.mapError .other)

/-- `metrics`, `api.py:133`. -/
def metrics : Py IdentityApi ApiExn MetricsCall MetricsCall.Reply String := do
  let currentCount : Nat ← Py.handle countSuspended fun _ ↦ pure 0
  let api ← Py.read
  pure (exposition api currentCount)

/-! ### One server -/

/-- A Redis server at a point in time, which may be out of reach. -/
structure RedisServer where
  store : Redis.Store
  now : Nat
  up : Bool

/-- How it answers the service. No connection is made before the first command. -/
def RedisServer.answer (w : RedisServer) : (c : ApiCall) → c.Reply × RedisServer
  | .client => (.ok (), w)
  | .clock => (w.now, w)
  | .redis c =>
    if w.up then
      ((Redis.exec w.now c w.store).1.mapError fun _ ↦ "ResponseError",
        { w with store := (Redis.exec w.now c w.store).2 })
    else (.error "ConnectionError", w)

/-- How it answers `metrics`; `SCARD` is the number of members. -/
def RedisServer.count (w : RedisServer) : (c : MetricsCall) → c.Reply × RedisServer
  | .client => (.ok (), w)
  | .scard key =>
    (if w.up then ((Redis.members w.store w.now key).map List.length).mapError
        fun _ ↦ "ResponseError"
      else .error "ConnectionError", w)

/-- The service with its store. -/
structure IdentityService where
  api : IdentityApi
  store : Redis.Store

/-- A request to the service. -/
inductive IdentityRequest where
  | suspend (agentId : String) (body : Value)
  | unsuspend (agentId : String)
  | status (agentId : String)
  | listSuspended
  | metrics

/-- A request at a point in time, and whether the server is there. -/
structure Arrival where
  request : IdentityRequest
  now : Nat
  up : Bool

namespace IdentityService

/-- What an endpoint answers, and the service afterwards. -/
def call {α : Type} (s : IdentityService) (now : Nat) (up : Bool) (m : Endpoint α) :
    Except ApiExn α × IdentityService :=
  match Py.serve RedisServer.answer m s.api ⟨s.store, now, up⟩ with
  | (out, api, w) => (out, ⟨api, w.store⟩)

/-- What the service answers to a request. -/
def respond (s : IdentityService) (a : Arrival) : Except ApiExn Value × IdentityService :=
  match a.request with
  | .suspend agentId body => s.call a.now a.up (postSuspend agentId body)
  | .unsuspend agentId => s.call a.now a.up (unsuspendIdentity agentId)
  | .status agentId => s.call a.now a.up (identityStatus agentId)
  | .listSuspended => s.call a.now a.up Identity.listSuspended
  | .metrics =>
    match Py.serve RedisServer.count Identity.metrics s.api ⟨s.store, a.now, a.up⟩ with
    | (out, api, w) => (out.map Value.str, ⟨api, w.store⟩)

/-- What it answers to requests one after the other. -/
def respondAll (s : IdentityService) :
    List Arrival → List (Except ApiExn Value) × IdentityService
  | [] => ([], s)
  | a :: as =>
    let first := s.respond a
    let rest := first.2.respondAll as
    (first.1 :: rest.1, rest.2)

end IdentityService

/-! ### The roster -/

/-- The suspended agents with what was last said of each, and how often an agent was suspended and
reinstated. -/
structure Roster where
  suspended : List String
  reason : String → String
  suspensions : Nat
  reinstatements : Nat

namespace Roster

/-- No agent was ever suspended. -/
def empty : Roster := ⟨[], fun _ ↦ "", 0, 0⟩

/-- An agent is suspended, or what is said of its suspension is replaced. -/
def suspend (r : Roster) (agentId reason : String) : Roster :=
  { r with
    suspended := if agentId ∈ r.suspended then r.suspended else r.suspended ++ [agentId]
    reason := Function.update r.reason agentId reason
    suspensions := if agentId ∈ r.suspended then r.suspensions else r.suspensions + 1 }

/-- A suspended agent is reinstated. -/
def reinstate (r : Roster) (agentId : String) : Roster :=
  { r with
    suspended := r.suspended.filter (· ≠ agentId)
    reinstatements := r.reinstatements + 1 }

/-- What is said of a suspension. -/
def note (now : Nat) (req : SuspendRequest) : String × String :=
  let suspendedAt := (req.suspendedAt.filter (· ≠ "")).getD (Python.isoformat now)
  (suspendedAt, s!"{suspendedAt}|{req.reason}")

/-- What a roster answers. -/
def respond (r : Roster) (a : Arrival) : Except ApiExn Value × Roster :=
  match a.request, a.up with
  | .metrics, up =>
    (.ok (.str (exposition ⟨r.suspensions, r.reinstatements⟩
      (if up then r.suspended.length else 0))), r)
  | .suspend agentId body, up =>
    match SuspendRequest.validate? body, up with
    | none, _ => (.error .invalid, r)
    | some _, false => (.error (.http 503 "Redis unavailable"), r)
    | some req, true =>
      (.ok (.obj [
        ("agent_id", .str agentId),
        ("status", .str "SUSPENDED"),
        ("newly_suspended", .bool (agentId ∉ r.suspended)),
        ("reason", .str req.reason),
        ("suspended_at", .str (note a.now req).1)]), r.suspend agentId (note a.now req).2)
  | _, false => (.error (.http 503 "Redis unavailable"), r)
  | .unsuspend agentId, true =>
    if agentId ∈ r.suspended then
      (.ok (.obj [("agent_id", .str agentId), ("status", .str "ACTIVE")]), r.reinstate agentId)
    else (.error (.http 404 s!"{agentId} was not suspended"), r)
  | .status agentId, true =>
    (.ok (.obj [
      ("agent_id", .str agentId),
      ("status", .str (if agentId ∈ r.suspended then "SUSPENDED" else "ACTIVE")),
      ("reason", if agentId ∈ r.suspended then .str (r.reason agentId) else .null)]), r)
  | .listSuspended, true =>
    (.ok (.obj [("count", .int r.suspended.length),
      ("agents", .arr ((sorted r.suspended).map .str))]), r)

/-- What it answers to requests one after the other. -/
def respondAll (r : Roster) : List Arrival → List (Except ApiExn Value) × Roster
  | [] => ([], r)
  | a :: as =>
    let first := r.respond a
    let rest := first.2.respondAll as
    (first.1 :: rest.1, rest.2)

/-- Every agent is there once, and the counters tell how many there are. -/
structure Balanced (r : Roster) : Prop where
  nodup : r.suspended.Nodup
  total : r.suspensions = r.reinstatements + r.suspended.length

end Roster

/-! ### The service and the roster -/

/-- The service stands where the roster does. -/
structure Represents (s : IdentityService) (r : Roster) : Prop where
  suspensions : s.api.suspensionsTotal = r.suspensions
  reinstatements : s.api.unsuspensionsTotal = r.reinstatements
  members : Redis.HoldsSet s.store suspendedKey r.suspended
  reasons : ∀ agentId, s.store (reasonKey agentId) =
    if agentId ∈ r.suspended then some ⟨.text (r.reason agentId), none⟩ else none

section
variable {s : IdentityService} {r : Roster} {api api' : IdentityApi} {w w' : RedisServer}

private theorem serve_bind_ok {α β : Type} {m : Endpoint α} {a : α}
    (h : Py.serve RedisServer.answer m api w = (.ok a, api', w')) (f : α → Endpoint β) :
    Py.serve RedisServer.answer (m >>= f) api w = Py.serve RedisServer.answer (f a) api' w' := by
  rw [Py.serve_bind, h]

private theorem serve_guarded_ok {α : Type} {m : Endpoint α} {a : α}
    (h : Py.serve RedisServer.answer m api w = (.ok a, api', w')) :
    Py.serve RedisServer.answer (guarded m) api w = (.ok a, api', w') := by
  rw [guarded, Py.serve_handle, h]

/-- A command that is answered. -/
theorem serve_redis {st st' : Redis.Store} {now : Nat} {c : Redis.Command} {a : c.Reply}
    (h : Redis.exec now c st = (.ok a, st')) :
    Py.serve RedisServer.answer (redis c) api ⟨st, now, true⟩ = (.ok a, api, ⟨st', now, true⟩) := by
  have ha : Py.serve RedisServer.answer (ask (.redis c)) api ⟨st, now, true⟩ =
      (.ok (.ok a), api, ⟨st', now, true⟩) := by
    show (Except.ok ((Redis.exec now c st).1.mapError fun _ ↦ "ResponseError"), api,
      RedisServer.mk (Redis.exec now c st).2 now true) = _
    rw [h]
    rfl
  rw [redis, serve_bind_ok ha]
  rfl

private theorem serve_getRedis : Py.serve RedisServer.answer getRedis api w =
    (.ok (), api, w) := rfl

/-- A suspended agent is on the roster. -/
theorem Roster.mem_suspend_self (r : Roster) (agentId reason : String) :
    agentId ∈ (r.suspend agentId reason).suspended := by
  rw [Roster.suspend]
  split
  · assumption
  · exact List.mem_append_right _ (List.mem_singleton_self _)

/-- The others are on it as before. -/
theorem Roster.mem_suspend_of_ne (r : Roster) {agentId b : String} (hb : b ≠ agentId)
    (reason : String) : b ∈ (r.suspend agentId reason).suspended ↔ b ∈ r.suspended := by
  rw [Roster.suspend]
  split
  · rfl
  · rw [List.mem_append, List.mem_singleton, or_iff_left hb]

/-- What the suspension of an agent answers, and what it leaves. -/
theorem Represents.call_suspend (h : Represents s r) (agentId : String) (req : SuspendRequest)
    (now : Nat) :
    s.call now true (suspendIdentity agentId req) = (.ok (.obj [
        ("agent_id", .str agentId),
        ("status", .str "SUSPENDED"),
        ("newly_suspended", .bool (agentId ∉ r.suspended)),
        ("reason", .str req.reason),
        ("suspended_at", .str (Roster.note now req).1)]),
      ⟨if agentId ∉ r.suspended then
          { s.api with suspensionsTotal := s.api.suspensionsTotal + 1 }
        else s.api,
        (Redis.sadd s.store now suspendedKey agentId).2.put (reasonKey agentId)
          (some ⟨.text (Roster.note now req).2, none⟩)⟩) := by
  let added : Nat := if agentId ∈ r.suspended then 0 else 1
  let st := (Redis.sadd s.store now suspendedKey agentId).2
  let st' := st.put (reasonKey agentId) (some ⟨.text (Roster.note now req).2, none⟩)
  have hadd : Redis.exec now (.sadd suspendedKey agentId) s.store = (.ok added, st) :=
    h.members.exec_sadd now agentId
  have htime : Py.serve RedisServer.answer (suspensionTime req) s.api ⟨st, now, true⟩ =
      (.ok (Roster.note now req).1, s.api, ⟨st, now, true⟩) := by
    rw [suspensionTime, Roster.note]
    cases req.suspendedAt.filter (· ≠ "") <;> rfl
  have hmark : Py.serve RedisServer.answer (markSuspended agentId req) s.api ⟨s.store, now, true⟩ =
      (.ok (added, (Roster.note now req).1), s.api, ⟨st', now, true⟩) := by
    rw [markSuspended, serve_bind_ok serve_getRedis, serve_bind_ok (serve_redis hadd),
      serve_bind_ok htime, serve_bind_ok (serve_redis rfl)]
    rfl
  have hadded : added ≠ 0 ↔ agentId ∉ r.suspended := by
    by_cases hm : agentId ∈ r.suspended <;> simp [added, hm]
  simp only [← hadded]
  rw [IdentityService.call, suspendIdentity, serve_bind_ok (serve_guarded_ok hmark)]
  by_cases ha : added ≠ 0
  · simp only [if_pos ha]
    rfl
  · simp only [if_neg ha]
    rfl

/-- An agent is suspended. -/
theorem Represents.suspend (h : Represents s r) (agentId : String) (req : SuspendRequest)
    (now : Nat) :
    (s.call now true (suspendIdentity agentId req)).1 = .ok (.obj [
        ("agent_id", .str agentId),
        ("status", .str "SUSPENDED"),
        ("newly_suspended", .bool (agentId ∉ r.suspended)),
        ("reason", .str req.reason),
        ("suspended_at", .str (Roster.note now req).1)]) ∧
      Represents (s.call now true (suspendIdentity agentId req)).2
        (r.suspend agentId (Roster.note now req).2) := by
  let st := (Redis.sadd s.store now suspendedKey agentId).2
  let st' := st.put (reasonKey agentId) (some ⟨.text (Roster.note now req).2, none⟩)
  have hput (k : String) (hk : k ≠ reasonKey agentId) : st' k = st k :=
    Redis.Store.put_of_ne st _ hk
  rw [h.call_suspend]
  refine ⟨rfl, ⟨?_, ?_, ?_, fun b ↦ ?_⟩⟩
  · show (if agentId ∉ r.suspended then _ else s.api : IdentityApi).suspensionsTotal =
      (Roster.suspend ..).suspensions
    simp only [Roster.suspend, ite_not]
    split
    · exact h.suspensions
    · exact congrArg (· + 1) h.suspensions
  · refine Eq.trans ?_ h.reinstatements
    split <;> rfl
  · refine (h.members.sadd_if now agentId).congr ?_
    exact hput _ (Ne.symm (reasonKey_ne agentId))
  · by_cases hb : b = agentId
    · subst hb
      have hreason : (r.suspend b (Roster.note now req).2).reason b = (Roster.note now req).2 :=
        Function.update_self ..
      rw [if_pos (r.mem_suspend_self b _), hreason]
      exact Redis.Store.put_self st _ _
    · have hst : st' (reasonKey b) = s.store (reasonKey b) :=
        (hput _ (reasonKey_injective.ne hb)).trans (Redis.sadd_of_ne (reasonKey_ne b))
      have hreason : (r.suspend agentId (Roster.note now req).2).reason b = r.reason b :=
        Function.update_of_ne hb ..
      show st' (reasonKey b) = _
      rw [hst, h.reasons b, hreason]
      simp only [r.mem_suspend_of_ne hb]

/-- An agent is reinstated, or it was not suspended. -/
theorem Represents.unsuspend (h : Represents s r) (agentId : String) (now : Nat) :
    (s.call now true (unsuspendIdentity agentId)).1 =
        (if agentId ∈ r.suspended then
          .ok (.obj [("agent_id", .str agentId), ("status", .str "ACTIVE")])
        else .error (.http 404 s!"{agentId} was not suspended")) ∧
      Represents (s.call now true (unsuspendIdentity agentId)).2
        (if agentId ∈ r.suspended then r.reinstate agentId else r) := by
  let removed : Nat := if agentId ∈ r.suspended then 1 else 0
  let st := (Redis.srem s.store now suspendedKey agentId).2
  let st' := st.put (reasonKey agentId) none
  have hput (k : String) (hk : k ≠ reasonKey agentId) : st' k = st k :=
    Redis.Store.put_of_ne st _ hk
  have hunmark : Py.serve RedisServer.answer (unmarkSuspended agentId) s.api ⟨s.store, now, true⟩ =
      (.ok removed, s.api, ⟨st', now, true⟩) := by
    rw [unmarkSuspended, serve_bind_ok serve_getRedis,
      serve_bind_ok (serve_redis (h.members.exec_srem now agentId)),
      serve_bind_ok (serve_redis rfl)]
    rfl
  have hmembers : Redis.HoldsSet st' suspendedKey (r.suspended.filter (· ≠ agentId)) := by
    refine (h.members.srem_filter now agentId).congr ?_
    exact hput _ (Ne.symm (reasonKey_ne agentId))
  have hreasons (b : String) : st' (reasonKey b) =
      if b ∈ r.suspended.filter (· ≠ agentId) then some ⟨.text (r.reason b), none⟩ else none := by
    by_cases hb : b = agentId
    · subst hb
      rw [if_neg (by simp)]
      exact Redis.Store.put_self st _ _
    · have hst : st' (reasonKey b) = s.store (reasonKey b) :=
        (hput _ (reasonKey_injective.ne hb)).trans (Redis.srem_of_ne (reasonKey_ne b))
      simp [hst, h.reasons b, hb]
  by_cases hm : agentId ∈ r.suspended
  · have hcall : s.call now true (unsuspendIdentity agentId) =
        (.ok (.obj [("agent_id", .str agentId), ("status", .str "ACTIVE")]),
          ⟨{ s.api with unsuspensionsTotal := s.api.unsuspensionsTotal + 1 }, st'⟩) := by
      rw [IdentityService.call, unsuspendIdentity, serve_bind_ok (serve_guarded_ok hunmark)]
      simp only [removed, if_pos hm]
      rfl
    rw [hcall, if_pos hm, if_pos hm]
    exact ⟨rfl, h.suspensions, congrArg (· + 1) h.reinstatements, hmembers, hreasons⟩
  · have hcall : s.call now true (unsuspendIdentity agentId) =
        (.error (.http 404 s!"{agentId} was not suspended"), ⟨s.api, st'⟩) := by
      rw [IdentityService.call, unsuspendIdentity, serve_bind_ok (serve_guarded_ok hunmark)]
      simp only [removed, if_neg hm]
      rfl
    have hf : r.suspended.filter (· ≠ agentId) = r.suspended := by
      rw [List.filter_eq_self]
      exact fun b hb ↦ decide_eq_true fun he ↦ hm (he ▸ hb)
    rw [hf] at hmembers hreasons
    rw [hcall, if_neg hm, if_neg hm]
    exact ⟨rfl, h.suspensions, h.reinstatements, hmembers, hreasons⟩

/-- What is asked of one agent. -/
theorem Represents.status (h : Represents s r) (agentId : String) (now : Nat) :
    s.call now true (identityStatus agentId) = (.ok (.obj [
      ("agent_id", .str agentId),
      ("status", .str (if agentId ∈ r.suspended then "SUSPENDED" else "ACTIVE")),
      ("reason", if agentId ∈ r.suspended then .str (r.reason agentId) else .null)]), s) := by
  have hmem : Redis.exec now (.sismember suspendedKey agentId) s.store =
      (.ok (decide (agentId ∈ r.suspended)), s.store) := by
    rw [Redis.exec, h.members.members]
    rfl
  have hreasons := h.reasons agentId
  by_cases hm : agentId ∈ r.suspended
  · rw [if_pos hm] at hreasons
    have hget : Redis.exec now (.get (reasonKey agentId)) s.store =
        (.ok (some (r.reason agentId)), s.store) := by
      rw [Redis.exec, Redis.get, Redis.live_of_persistent hreasons]
    rw [decide_eq_true hm] at hmem
    have hread : Py.serve RedisServer.answer (readSuspension agentId) s.api ⟨s.store, now, true⟩ =
        (.ok (true, some (r.reason agentId)), s.api, ⟨s.store, now, true⟩) := by
      rw [readSuspension, serve_bind_ok serve_getRedis, serve_bind_ok (serve_redis hmem),
        if_pos rfl, serve_bind_ok (serve_redis hget)]
      rfl
    rw [IdentityService.call, identityStatus, serve_bind_ok (serve_guarded_ok hread), if_pos hm,
      if_pos hm]
    rfl
  · rw [decide_eq_false hm] at hmem
    have hread : Py.serve RedisServer.answer (readSuspension agentId) s.api ⟨s.store, now, true⟩ =
        (.ok (false, none), s.api, ⟨s.store, now, true⟩) := by
      rw [readSuspension, serve_bind_ok serve_getRedis, serve_bind_ok (serve_redis hmem),
        if_neg Bool.false_ne_true]
      rfl
    rw [IdentityService.call, identityStatus, serve_bind_ok (serve_guarded_ok hread), if_neg hm,
      if_neg hm]
    rfl

/-- What is asked of all agents. -/
theorem Represents.listSuspended (h : Represents s r) (now : Nat) :
    s.call now true listSuspended = (.ok (.obj [("count", .int r.suspended.length),
      ("agents", .arr ((sorted r.suspended).map .str))]), s) := by
  have hset : Redis.exec now (.smembers suspendedKey) s.store = (.ok r.suspended, s.store) := by
    rw [Redis.exec, h.members.members]
  have hread : Py.serve RedisServer.answer (getRedis >>= fun _ ↦
      redis (.smembers suspendedKey) >>= fun members : List String ↦ pure (sorted members)) s.api
        ⟨s.store, now, true⟩ = (.ok (sorted r.suspended), s.api, ⟨s.store, now, true⟩) := by
    rw [serve_bind_ok serve_getRedis, serve_bind_ok (serve_redis hset)]
    rfl
  have hlen : (sorted r.suspended).length = r.suspended.length := List.length_insertionSort ..
  rw [IdentityService.call, Identity.listSuspended, serve_bind_ok (serve_guarded_ok hread), ← hlen]
  rfl

/-- What is counted. -/
theorem Represents.metrics (h : Represents s r) (now : Nat) (up : Bool) :
    Py.serve RedisServer.count metrics s.api ⟨s.store, now, up⟩ =
      (.ok (exposition ⟨r.suspensions, r.reinstatements⟩ (if up then r.suspended.length else 0)),
        s.api, ⟨s.store, now, up⟩) := by
  have hm := h.members.members now
  have hapi : s.api = ⟨r.suspensions, r.reinstatements⟩ := by
    rw [← h.suspensions, ← h.reinstatements]
  cases up with
  | false =>
    rw [← hapi]
    rfl
  | true =>
    have hcount : Py.serve RedisServer.count countSuspended s.api ⟨s.store, now, true⟩ =
        (.ok r.suspended.length, s.api, ⟨s.store, now, true⟩) := by
      show Py.serve RedisServer.count (Py.ofExcept ((((Redis.members s.store now suspendedKey).map
        List.length).mapError fun _ ↦ "ResponseError").mapError ApiExn.other)) s.api
          ⟨s.store, now, true⟩ = _
      rw [hm]
      rfl
    rw [Identity.metrics, Py.serve_bind, Py.serve_handle, hcount, ← hapi]
    rfl

/-- One request. -/
theorem Represents.respond (h : Represents s r) (a : Arrival) :
    (s.respond a).1 = (r.respond a).1 ∧ Represents (s.respond a).2 (r.respond a).2 := by
  obtain ⟨q, now, up⟩ := a
  cases q with
  | metrics =>
    rw [IdentityService.respond, h.metrics now up]
    exact ⟨rfl, h⟩
  | suspend agentId body =>
    cases hv : SuspendRequest.validate? body with
    | none =>
      have hs : s.respond ⟨.suspend agentId body, now, up⟩ = (.error .invalid, s) := by
        simp only [IdentityService.respond, postSuspend, hv]
        rfl
      have hr : r.respond ⟨.suspend agentId body, now, up⟩ = (.error .invalid, r) := by
        simp only [Roster.respond, hv]
      rw [hs, hr]
      exact ⟨rfl, h⟩
    | some req =>
      have hs : s.respond ⟨.suspend agentId body, now, up⟩ =
          s.call now up (suspendIdentity agentId req) := by
        simp only [IdentityService.respond, postSuspend, hv]
      rw [hs]
      cases up with
      | false =>
        simp only [Roster.respond, hv]
        exact ⟨rfl, h⟩
      | true =>
        simp only [Roster.respond, hv]
        exact h.suspend agentId req now
  | unsuspend agentId =>
    cases up with
    | false => exact ⟨rfl, h⟩
    | true =>
      have hs : s.respond ⟨.unsuspend agentId, now, true⟩ =
        s.call now true (unsuspendIdentity agentId) := rfl
      obtain ⟨hout, hnext⟩ := h.unsuspend agentId now
      rw [hs, Roster.respond, hout]
      by_cases hm : agentId ∈ r.suspended
      · simp only [if_pos hm] at hnext ⊢
        exact ⟨trivial, hnext⟩
      · simp only [if_neg hm] at hnext ⊢
        exact ⟨trivial, hnext⟩
  | status agentId =>
    cases up with
    | false => exact ⟨rfl, h⟩
    | true =>
      have hs : s.respond ⟨.status agentId, now, true⟩ = _ := h.status agentId now
      rw [hs]
      exact ⟨rfl, h⟩
  | listSuspended =>
    cases up with
    | false => exact ⟨rfl, h⟩
    | true =>
      have hs : s.respond ⟨.listSuspended, now, true⟩ = _ := h.listSuspended now
      rw [hs]
      exact ⟨rfl, h⟩

/-- The counters stay in step with the roster. -/
theorem Roster.Balanced.respond (h : r.Balanced) (a : Arrival) : (r.respond a).2.Balanced := by
  obtain ⟨q, now, up⟩ := a
  have hsuspend (agentId reason : String) : (r.suspend agentId reason).Balanced := by
    rw [Roster.suspend]
    by_cases hm : agentId ∈ r.suspended
    · simp only [if_pos hm]
      exact ⟨h.nodup, h.total⟩
    · simp only [if_neg hm]
      refine ⟨?_, ?_⟩
      · show (r.suspended ++ [agentId]).Nodup
        rw [← List.concat_eq_append, List.nodup_concat]
        exact ⟨hm, h.nodup⟩
      · show r.suspensions + 1 = r.reinstatements + (r.suspended ++ [agentId]).length
        rw [List.length_append, List.length_singleton, h.total, Nat.add_assoc]
  have hreinstate {agentId : String} (hm : agentId ∈ r.suspended) :
      (r.reinstate agentId).Balanced := by
    refine ⟨h.nodup.filter _, ?_⟩
    have hf : r.suspended.filter (· ≠ agentId) = r.suspended.erase agentId := by
      rw [h.nodup.erase_eq_filter]
      exact List.filter_congr fun b _ ↦ Bool.eq_iff_iff.mpr (by simp)
    have hpos := List.length_pos_of_mem hm
    show r.suspensions = r.reinstatements + 1 + (r.suspended.filter (· ≠ agentId)).length
    rw [hf, List.length_erase_of_mem hm, h.total]
    omega
  cases q with
  | metrics => exact h
  | suspend agentId body =>
    cases hv : SuspendRequest.validate? body with
    | none =>
      simp only [Roster.respond, hv]
      exact h
    | some req =>
      cases up with
      | false =>
        simp only [Roster.respond, hv]
        exact h
      | true =>
        simp only [Roster.respond, hv]
        exact hsuspend ..
  | unsuspend agentId =>
    cases up with
    | false => exact h
    | true =>
      by_cases hm : agentId ∈ r.suspended
      · simp only [Roster.respond, if_pos hm]
        exact hreinstate hm
      · simp only [Roster.respond, if_neg hm]
        exact h
  | status agentId => cases up <;> exact h
  | listSuspended => cases up <;> exact h

end

/-! ### All sequences of requests -/

/-- The service and its store before the first request. -/
def IdentityService.new : IdentityService := ⟨⟨0, 0⟩, fun _ ↦ none⟩

/-- Whatever is asked, and whenever the server is out of reach, the service answers as the roster
does, whose counters always tell how many agents are suspended; and the set that the enforcement
points read has just these agents. -/
theorem identity_roster (as : List Arrival) :
    (IdentityService.new.respondAll as).1 = (Roster.empty.respondAll as).1 ∧
      (Roster.empty.respondAll as).2.Balanced ∧
      Redis.HoldsSet (IdentityService.new.respondAll as).2.store suspendedKey
        (Roster.empty.respondAll as).2.suspended := by
  have h₀ : Represents .new .empty := ⟨rfl, rfl, .inl ⟨rfl, rfl⟩, fun _ ↦ rfl⟩
  have hb₀ : Roster.empty.Balanced := ⟨.nil, rfl⟩
  have hrun {s : IdentityService} {r : Roster} (h : Represents s r) (hb : r.Balanced) :
      (s.respondAll as).1 = (r.respondAll as).1 ∧ (r.respondAll as).2.Balanced ∧
        Represents (s.respondAll as).2 (r.respondAll as).2 := by
    induction as generalizing s r with
    | nil => exact ⟨rfl, hb, h⟩
    | cons a as ih =>
      obtain ⟨hout, hnext⟩ := h.respond a
      obtain ⟨houts, hb', hlast⟩ := ih hnext (hb.respond a)
      exact ⟨congrArg₂ List.cons hout houts, hb', hlast⟩
  obtain ⟨hout, hb, hlast⟩ := hrun h₀ hb₀
  exact ⟨hout, hb, hlast.members⟩

end NhiSentinel.Identity
