import NhiSentinel.Identity.Api

/-!
# Calls of the identity API

A call that suspends or reinstates an agent sends two commands: one on the set of suspended
agents and one on the reason of the agent. It stops at the first that fails, and answers 503
then and only then.
-/

namespace NhiSentinel.Identity
open NhiSentinel.Base

/-- A request to `suspend_identity` or to `unsuspend_identity`. -/
inductive SuspensionCall where
  | suspend (agentId : String) (req : SuspendRequest)
  | unsuspend (agentId : String)

namespace SuspensionCall

/-- The agent that a call is about. -/
def agentId : SuspensionCall → String
  | suspend agentId _ | unsuspend agentId => agentId

/-- The endpoint that a call goes to. -/
def endpoint : SuspensionCall → Endpoint Value
  | suspend agentId req => suspendIdentity agentId req
  | unsuspend agentId => unsuspendIdentity agentId

/-- The command on the set of suspended agents. -/
def mark : SuspensionCall → Redis.Command
  | suspend agentId _ => .sadd suspendedKey agentId
  | unsuspend agentId => .srem suspendedKey agentId

/-- The command on the reason, given the time of the suspension. -/
def note (suspendedAt : String) : SuspensionCall → Redis.Command
  | suspend agentId req => .set (reasonKey agentId) s!"{suspendedAt}|{req.reason}"
  | unsuspend agentId => .del (reasonKey agentId)

/-- A mark is under the key of the set. -/
@[simp] theorem mark_key (call : SuspensionCall) : call.mark.key = suspendedKey := by
  cases call <;> rfl

/-- A note is under the key of the agent's reason. -/
@[simp] theorem note_key (suspendedAt : String) (call : SuspensionCall) :
    (call.note suspendedAt).key = reasonKey call.agentId := by
  cases call <;> rfl

end SuspensionCall

/-- The clock is read, or nothing is asked. -/
def Quiet (u : List ApiEvent) : Prop := ∀ e ∈ u, ∃ now : Nat, e = ⟨.clock, now⟩

/-- The calls to the environment that come of two commands in sequence. -/
inductive Issues (a b : Redis.Command) : List ApiEvent → Prop where
  | unconnected (cls : String) : Issues a b [⟨.client, .error cls⟩]
  | first (cls : String) : Issues a b [⟨.client, .ok ()⟩, ⟨.redis a, .error cls⟩]
  | both (x : a.Reply) {u : List ApiEvent} (hu : Quiet u) (reply : Except String b.Reply) :
      Issues a b (⟨.client, .ok ()⟩ :: ⟨.redis a, .ok x⟩ :: (u ++ [⟨.redis b, reply⟩]))

section
variable {agentId : String} {req : SuspendRequest} {api api' : IdentityApi} {t : List ApiEvent}

/-- A quiet trace has no command. -/
theorem Quiet.mem_redis {u : List ApiEvent} (hu : Quiet u) {c : Redis.Command}
    {reply : Except String c.Reply} : (⟨.redis c, reply⟩ : ApiEvent) ∉ u := by
  intro h
  obtain ⟨now, he⟩ := hu _ h
  cases he

private theorem Quiet.mem_client {u : List ApiEvent} (hu : Quiet u) {reply : Except String Unit} :
    (⟨.client, reply⟩ : ApiEvent) ∉ u := by
  intro h
  obtain ⟨now, he⟩ := hu _ h
  cases he

/-- Every call is answered where both commands are. -/
theorem answered_both {a b : Redis.Command} {x : a.Reply} {u : List ApiEvent} (hu : Quiet u)
    {reply : Except String b.Reply} :
    Answered (⟨.client, .ok ()⟩ :: ⟨.redis a, .ok x⟩ :: (u ++ [⟨.redis b, reply⟩])) ↔
      ∃ y, reply = .ok y := by
  constructor
  · intro h
    apply h.2 b reply
    simp
  · rintro ⟨y, rfl⟩
    constructor
    · intro reply hm
      simp only [List.mem_cons, List.mem_append, hu.mem_client, false_or] at hm
      rcases hm with h | h | h | h <;> cases h
      rfl
    · intro c reply hm
      simp only [List.mem_cons, List.mem_append, hu.mem_redis, false_or] at hm
      rcases hm with h | h | h | h <;> cases h <;> exact ⟨_, rfl⟩

/-- The time of a suspension comes from the request or the clock, and is always there. -/
theorem suspensionTime_ok {out : Except ApiExn String}
    (h : Py.Run (suspensionTime req) api t out api') :
    Quiet t ∧ (∃ suspendedAt, out = .ok suspendedAt) ∧ api' = api := by
  unfold suspensionTime at h
  split at h
  · obtain ⟨rfl, rfl, rfl⟩ := Py.run_pure.mp h
    exact ⟨by simp [Quiet], ⟨_, rfl⟩, rfl⟩
  · obtain ⟨now, _, rfl, h₁⟩ := Py.run_ask_bind.mp h
    obtain ⟨rfl, rfl, rfl⟩ := Py.run_pure.mp h₁
    exact ⟨by simp [Quiet], ⟨_, rfl⟩, rfl⟩

/-- What the guarded part of an endpoint comes to: its value if every call is answered, and an
exception otherwise; the counters stay as they are. -/
structure Guards {α : Type} (t : List ApiEvent) (out : Except ApiExn α) (api api' : IdentityApi) :
    Prop where
  answered_iff : Answered t ↔ ∃ a, out = .ok a
  counters : api' = api

private theorem guards_unconnected {α : Type} (cls : String) :
    Guards [⟨.client, .error cls⟩] (.error (.other cls) : Except ApiExn α) api api := by
  refine ⟨⟨fun h ↦ ?_, fun ⟨a, h⟩ ↦ ?_⟩, rfl⟩
  · cases h.1 _ List.mem_cons_self
  · cases h

private theorem guards_first {α : Type} {a : Redis.Command} (cls : String) :
    Guards [⟨.client, .ok ()⟩, ⟨.redis a, .error cls⟩]
      (.error (.other cls) : Except ApiExn α) api api := by
  refine ⟨⟨fun h ↦ ?_, fun ⟨a, h⟩ ↦ ?_⟩, rfl⟩
  · obtain ⟨x, hx⟩ := h.2 a (.error cls) (by simp)
    cases hx
  · cases h

private theorem markSuspended_issues {out : Except ApiExn (Nat × String)}
    (h : Py.Run (markSuspended agentId req) api t out api') :
    (∃ suspendedAt, Issues (.sadd suspendedKey agentId)
      ((SuspensionCall.suspend agentId req).note suspendedAt) t) ∧ Guards t out api api' := by
  rcases run_getRedis_bind.mp h with ⟨_, rfl, h₁⟩ | ⟨cls, rfl, rfl, rfl⟩
  · rcases run_redis_bind.mp h₁ with ⟨added, u, rfl, h₂⟩ | ⟨cls, rfl, rfl, rfl⟩
    · rcases Py.run_bind.mp h₂ with ⟨e, h₃, -⟩ | ⟨suspendedAt, u₁, u₂, _, rfl, h₃, h₄⟩
      · obtain ⟨-, ⟨_, hs⟩, -⟩ := suspensionTime_ok h₃
        cases hs
      · obtain ⟨hq, -, rfl⟩ := suspensionTime_ok h₃
        rcases run_redis_bind.mp h₄ with ⟨_, _, rfl, h₅⟩ | ⟨cls, rfl, rfl, rfl⟩
        · obtain ⟨rfl, rfl, rfl⟩ := Py.run_pure.mp h₅
          exact ⟨⟨suspendedAt, .both added hq _⟩,
            ⟨(answered_both hq).trans ⟨fun _ ↦ ⟨_, rfl⟩, fun _ ↦ ⟨_, rfl⟩⟩, rfl⟩⟩
        · refine ⟨⟨suspendedAt, .both added hq _⟩, (answered_both hq).trans ?_, rfl⟩
          simp
    · exact ⟨⟨"", .first cls⟩, guards_first cls⟩
  · exact ⟨⟨"", .unconnected cls⟩, guards_unconnected cls⟩

private theorem unmarkSuspended_issues {out : Except ApiExn Nat}
    (h : Py.Run (unmarkSuspended agentId) api t out api') :
    Issues (.srem suspendedKey agentId) (.del (reasonKey agentId)) t ∧ Guards t out api api' := by
  have hq : Quiet [] := by simp [Quiet]
  rcases run_getRedis_bind.mp h with ⟨_, rfl, h₁⟩ | ⟨cls, rfl, rfl, rfl⟩
  · rcases run_redis_bind.mp h₁ with ⟨removed, u, rfl, h₂⟩ | ⟨cls, rfl, rfl, rfl⟩
    · rcases run_redis_bind.mp h₂ with ⟨_, _, rfl, h₃⟩ | ⟨cls, rfl, rfl, rfl⟩
      · obtain ⟨rfl, rfl, rfl⟩ := Py.run_pure.mp h₃
        exact ⟨.both removed hq _,
          ⟨(answered_both hq).trans ⟨fun _ ↦ ⟨_, rfl⟩, fun _ ↦ ⟨_, rfl⟩⟩, rfl⟩⟩
      · refine ⟨.both removed hq _, (answered_both hq).trans ?_, rfl⟩
        simp
    · exact ⟨.first cls, guards_first cls⟩
  · exact ⟨.unconnected cls, guards_unconnected cls⟩

/-- A guarded part answers 503 where a call fails; then nothing follows it. -/
theorem run_guarded_bind {α : Type} {m : Endpoint α} {f : α → Endpoint Value}
    {out : Except ApiExn Value} (h : Py.Run (guarded m >>= f) api t out api')
    (hm : ∀ {t out api'}, Py.Run m api t out api' → Guards t out api api')
    (hf : ∀ {a t api₁ api' out}, Py.Run (f a) api₁ t out api' → t = [] ∧ status out ≠ 503) :
    (∃ out' api'', Py.Run m api t out' api'') ∧ (status out = 503 ↔ ¬ Answered t) ∧
      (status out = 503 → api' = api) := by
  rcases Py.run_bind.mp h with ⟨e, h₁, rfl⟩ | ⟨a, t₁, t₂, s₁, rfl, h₁, h₂⟩
  · rw [guarded, Py.run_handle] at h₁
    rcases h₁ with ⟨a, -, he⟩ | ⟨e', t₁, t₂, s₁, rfl, h₁, h₂⟩
    · cases he
    · obtain ⟨rfl, he, rfl⟩ := Py.run_raise.mp h₂
      cases he
      have hg := hm h₁
      rw [List.append_nil]
      refine ⟨⟨_, _, h₁⟩, ⟨fun _ ha ↦ ?_, fun _ ↦ rfl⟩, fun _ ↦ hg.counters⟩
      obtain ⟨a, ha⟩ := hg.answered_iff.mp ha
      cases ha
  · obtain ⟨rfl, hs⟩ := hf h₂
    rw [guarded, Py.run_handle] at h₁
    rcases h₁ with ⟨a', h₁, ha⟩ | ⟨e', t₁, t₂, s₁, rfl, -, h₂⟩
    · have hg := hm h₁
      rw [List.append_nil]
      refine ⟨⟨_, _, h₁⟩, ⟨fun h ↦ absurd h hs, fun hn ↦ ?_⟩, fun h ↦ absurd h hs⟩
      exact absurd (hg.answered_iff.mpr ⟨a', rfl⟩) hn
    · obtain ⟨-, he, -⟩ := Py.run_raise.mp h₂
      cases he

end

/-- A call sends its two commands in order. It answers 503 exactly if one of them, or the client,
fails, and counts nothing then. -/
theorem SuspensionCall.run_issues {call : SuspensionCall} {api api' : IdentityApi}
    {t : List ApiEvent} {out : Except ApiExn Value} (h : Py.Run call.endpoint api t out api') :
    (∃ suspendedAt, Issues call.mark (call.note suspendedAt) t) ∧
      (status out = 503 ↔ ¬ Answered t) ∧ (status out = 503 → api' = api) := by
  cases call with
  | suspend agentId req =>
    obtain ⟨⟨_, _, h₁⟩, hs⟩ := run_guarded_bind h (fun h ↦ (markSuspended_issues h).2) (by
      intro ⟨added, suspendedAt⟩ t api₁ api' out h
      by_cases ha : added = 0 <;> simp [ha] at h <;> simp [h, status])
    exact ⟨(markSuspended_issues h₁).1, hs⟩
  | unsuspend agentId =>
    obtain ⟨⟨_, _, h₁⟩, hs⟩ := run_guarded_bind h (fun h ↦ (unmarkSuspended_issues h).2) (by
      intro removed t api₁ api' out h
      by_cases hr : removed = 0 <;> simp [hr] at h <;> simp [h, status])
    exact ⟨⟨"", (unmarkSuspended_issues h₁).1⟩, hs⟩

end NhiSentinel.Identity
