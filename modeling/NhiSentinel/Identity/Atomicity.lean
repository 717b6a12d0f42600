import NhiSentinel.Base.Observe
import NhiSentinel.Identity.Calls

/-!
# Calls of the identity API that answer 503

Both commands of a call stand under one `except` clause, so that a 503 does not tell whether
the first was carried out, nor whether the one that failed was. What was carried out stays.
-/

namespace NhiSentinel.Identity
open NhiSentinel.Base

/-- The commands of the calls are sent to a server, the last no later than `now`. Those that it
carries out are listed with their times; one that fails is carried out or not. -/
inductive ServedUntil (now : Nat) :
    Redis.Store → List ApiEvent → List (Nat × Redis.Command) → Redis.Store → Prop where
  | nil (st : Redis.Store) : ServedUntil now st [] [] st
  | client (reply : Except String Unit) {st st' : Redis.Store} {t : List ApiEvent}
      {done : List (Nat × Redis.Command)} (hs : ServedUntil now st t done st') :
      ServedUntil now st (⟨.client, reply⟩ :: t) done st'
  | clock (time : Nat) {st st' : Redis.Store} {t : List ApiEvent}
      {done : List (Nat × Redis.Command)} (hs : ServedUntil now st t done st') :
      ServedUntil now st (⟨.clock, time⟩ :: t) done st'
  | answered {n : Nat} (hn : n ≤ now) {c : Redis.Command} {reply : Except String c.Reply}
      {st st' : Redis.Store} {t : List ApiEvent} {done : List (Nat × Redis.Command)}
      (hr : reply = (Redis.exec n c st).1.mapError fun _ ↦ "ResponseError")
      (hs : ServedUntil now (Redis.exec n c st).2 t done st') :
      ServedUntil now st (⟨.redis c, reply⟩ :: t) ((n, c) :: done) st'
  | executed {n : Nat} (hn : n ≤ now) (cls : String) {c : Redis.Command} {st st' : Redis.Store}
      {t : List ApiEvent} {done : List (Nat × Redis.Command)}
      (hs : ServedUntil now (Redis.exec n c st).2 t done st') :
      ServedUntil now st (⟨.redis c, .error cls⟩ :: t) ((n, c) :: done) st'
  | failed (cls : String) {c : Redis.Command} {st st' : Redis.Store} {t : List ApiEvent}
      {done : List (Nat × Redis.Command)} (hs : ServedUntil now st t done st') :
      ServedUntil now st (⟨.redis c, .error cls⟩ :: t) done st'

/-- What is seen of an agent from `now` on, and what the service has counted, are as before. -/
structure Unchanged (agentId : String) (now : Nat) (st st' : Redis.Store)
    (api api' : IdentityApi) : Prop where
  membership : Redis.AlikeFrom now (.sismember suspendedKey agentId) st st'
  reason : Redis.AlikeFrom now (.get (reasonKey agentId)) st st'
  counters : api' = api

section
variable {now : Nat} {st st' : Redis.Store} {t : List ApiEvent} {a b : Redis.Command}
  {done : List (Nat × Redis.Command)}

/-- The calls are served in the sense of the rest of the model. -/
theorem ServedUntil.served (hs : ServedUntil now st t done st') : Served st t st' := by
  induction hs with
  | nil st => exact .nil st
  | client reply _ ih => exact .client reply ih
  | clock time _ ih => exact .clock time ih
  | @answered n _ c _ st _ _ _ hr _ ih =>
    subst hr
    exact .redis n .answered ih
  | @executed n _ cls c st _ _ _ _ ih => exact .redis n (.failed cls true) ih
  | @failed cls c st _ _ _ _ ih => exact .redis 0 (.failed cls false) ih

/-- What is carried out makes the store. -/
theorem ServedUntil.store_eq (hs : ServedUntil now st t done st') :
    st' = done.foldl (fun st e ↦ (Redis.exec e.1 e.2 st).2) st := by
  induction hs with
  | nil st => rfl
  | client _ _ ih | clock _ _ ih | failed _ _ ih => exact ih
  | answered _ _ _ ih | executed _ _ _ ih => rw [ih, List.foldl_cons]

private theorem ServedUntil.time_le (hs : ServedUntil now st t done st') :
    ∀ e ∈ done, e.1 ≤ now := by
  induction hs with
  | nil st => simp
  | client _ _ ih | clock _ _ ih | failed _ _ ih => exact ih
  | answered hn _ _ ih | executed hn _ _ ih =>
    intro e he
    rcases List.mem_cons.mp he with rfl | he
    · exact hn
    · exact ih e he

/-- Nothing is carried out where no command is sent. -/
theorem ServedUntil.quiet {u : List ApiEvent} (hu : Quiet u)
    (hs : ServedUntil now st (u ++ t) done st') : ServedUntil now st t done st' := by
  induction u generalizing st with
  | nil => exact hs
  | cons e u ih =>
    obtain ⟨time, rfl⟩ := hu e List.mem_cons_self
    cases hs with
    | clock _ hs => exact ih (fun e he ↦ hu e (List.mem_cons_of_mem _ he)) hs

/-- A command that is sent last is carried out or not. -/
theorem ServedUntil.last {reply : Except String b.Reply}
    (hs : ServedUntil now st [⟨.redis b, reply⟩] done st') : done = [] ∨ ∃ m, done = [(m, b)] := by
  cases hs with
  | answered _ _ hs | executed _ _ hs =>
    cases hs
    exact .inr ⟨_, rfl⟩
  | failed _ hs =>
    cases hs
    exact .inl rfl

/-- The first command is carried out, and then perhaps the second, or neither is. -/
theorem Issues.carriedOut (hi : Issues a b t) (hs : ServedUntil now st t done st') :
    done = [] ∨ (∃ n, done = [(n, a)]) ∨ ∃ n m, done = [(n, a), (m, b)] := by
  cases hi with
  | unconnected cls =>
    cases hs with
    | client _ hs =>
      cases hs
      exact .inl rfl
  | first cls =>
    cases hs with
    | client _ hs =>
      rcases hs.last with rfl | ⟨n, rfl⟩
      · exact .inl rfl
      · exact .inr (.inl ⟨n, rfl⟩)
  | both x hu reply =>
    cases hs with
    | client _ hs =>
      cases hs with
      | answered _ _ hs =>
        rcases (hs.quiet hu).last with rfl | ⟨m, rfl⟩
        · exact .inr (.inl ⟨_, rfl⟩)
        · exact .inr (.inr ⟨_, m, rfl⟩)

/-- The set shows what the first command did, and the reason what the second did. -/
theorem alike_iff {agentId : String}
    (hd : done = [] ∨ (∃ n, done = [(n, a)]) ∨ ∃ n m, done = [(n, a), (m, b)])
    (ht : ∀ e ∈ done, e.1 ≤ now) (hst : st' = done.foldl (fun st e ↦ (Redis.exec e.1 e.2 st).2) st)
    (ha : a.key = suspendedKey) (hb : b.key = reasonKey agentId)
    (hseen : ∀ {n st}, n ≤ now →
      (Redis.AlikeFrom now (.sismember suspendedKey agentId) st (Redis.exec n a st).2 ↔
        Redis.InPlace st now (n, a)))
    (hread : ∀ {m st}, Redis.AlikeFrom now (.get (reasonKey agentId)) st (Redis.exec m b st).2 ↔
      Redis.InPlace st now (m, b)) :
    Redis.AlikeFrom now (.sismember suspendedKey agentId) st st' ∧
        Redis.AlikeFrom now (.get (reasonKey agentId)) st st' ↔
      ∀ e ∈ done, Redis.InPlace st now e := by
  have hne := reasonKey_ne agentId
  -- each command leaves the key of the other alone
  have hr (n : Nat) (st : Redis.Store) :
      (Redis.exec n a st).2 (reasonKey agentId) = st (reasonKey agentId) :=
    Redis.exec_of_ne (ha ▸ hne)
  have hs (m : Nat) (st : Redis.Store) :
      (Redis.exec m b st).2 suspendedKey = st suspendedKey :=
    Redis.exec_of_ne (hb ▸ hne.symm)
  rcases hd with rfl | ⟨n, rfl⟩ | ⟨n, m, rfl⟩
  · subst hst
    simp only [List.not_mem_nil, false_imp_iff, implies_true, iff_true]
    exact ⟨.of_eq rfl, .of_eq rfl⟩
  · subst hst
    simp only [List.foldl_cons, List.foldl_nil, List.mem_singleton, forall_eq]
    have hn : n ≤ now := ht (n, a) (by simp)
    rw [hseen hn, and_iff_left (.of_eq (hr n st))]
  · subst hst
    simp only [List.foldl_cons, List.foldl_nil, List.forall_mem_cons, List.not_mem_nil,
      false_imp_iff, implies_true, and_true]
    have hn : n ≤ now := ht (n, a) (by simp)
    rw [← hseen hn]
    apply and_congr
    · exact Redis.AlikeFrom.congr rfl (hs m _)
    · have hp : Redis.InPlace (Redis.exec n a st).2 now (m, b) ↔ Redis.InPlace st now (m, b) :=
        Redis.InPlace.congr (hb ▸ hr n st)
      rw [← hp, ← hread]
      exact Redis.AlikeFrom.congr (hr n st).symm rfl

end

/-- A call that answers 503 leaves everything as it was exactly if each command of it that the
server carries out writes what is there already. -/
theorem call_unchanged_iff {call : SuspensionCall} {api api' : IdentityApi} {t : List ApiEvent}
    {out : Except ApiExn Value} {now : Nat} {st st' : Redis.Store}
    {done : List (Nat × Redis.Command)} (h : Py.Run call.endpoint api t out api')
    (hs : ServedUntil now st t done st') (h503 : status out = 503) :
    Unchanged call.agentId now st st' api api' ↔ ∀ e ∈ done, Redis.InPlace st now e := by
  obtain ⟨⟨suspendedAt, hi⟩, -, hc⟩ := call.run_issues h
  have hd := alike_iff (hi.carriedOut hs) hs.time_le hs.store_eq call.mark_key
    (call.note_key suspendedAt) (by
      cases call with
      | suspend agentId req => exact fun hn ↦ Redis.alikeFrom_sadd hn
      | unsuspend agentId => exact fun hn ↦ Redis.alikeFrom_srem hn) (by
      cases call with
      | suspend agentId req => exact Redis.alikeFrom_set
      | unsuspend agentId => exact Redis.alikeFrom_del)
  rw [← hd]
  constructor
  · intro hu
    exact ⟨hu.membership, hu.reason⟩
  · intro ⟨hm, hr⟩
    exact ⟨hm, hr, hc h503⟩

/-! ### A suspension without its reason -/

section
variable (agentId since reason cls : String) (api : IdentityApi)

/-- The request gives its time, so that the second command follows the first. -/
private def dated : SuspensionCall := .suspend agentId ⟨reason, some since⟩

/-- The agent is added, and the reason is not written. -/
private def halfway : List ApiEvent :=
  [⟨.client, .ok ()⟩, ⟨.redis (.sadd suspendedKey agentId), .ok 1⟩,
    ⟨.redis (.set (reasonKey agentId) s!"{since}|{reason}"), .error cls⟩]

private theorem run_halfway (hs : since ≠ "") :
    Py.Run (dated agentId since reason).endpoint api (halfway agentId since reason cls)
      (.error (.http 503 "Redis unavailable")) api := by
  have hm : Py.Run (markSuspended agentId ⟨reason, some since⟩) api
      (halfway agentId since reason cls) (.error (.other cls)) api := by
    refine run_getRedis_bind.mpr (.inl ⟨_, rfl, run_redis_bind.mpr (.inl ⟨1, _, rfl, ?_⟩)⟩)
    have ht : suspensionTime ⟨reason, some since⟩ = pure since := by
      simp [suspensionTime, Option.filter, hs]
    rw [ht]
    exact run_redis_bind.mpr (.inr ⟨cls, rfl, rfl, rfl⟩)
  refine Py.run_bind.mpr (.inl ⟨_, ?_, rfl⟩)
  rw [guarded, Py.run_handle]
  exact .inr ⟨_, _, [], _, (List.append_nil _).symm, hm, Py.run_raise.mpr ⟨rfl, rfl, rfl⟩⟩

private theorem served_halfway :
    ServedUntil 0 (fun _ ↦ none) (halfway agentId since reason cls)
      [(0, .sadd suspendedKey agentId)]
      (Redis.exec 0 (.sadd suspendedKey agentId) fun _ ↦ none).2 :=
  .client _ (.answered le_rfl rfl (.failed cls (.nil _)))

end

/-- A suspension that was marked and then failed. -/
theorem call_unchanged_iff_halfway :
    Unchanged "agent-data-001" 0 (fun _ ↦ none)
        (Redis.exec 0 (.sadd suspendedKey "agent-data-001") fun _ ↦ none).2 ⟨0, 0⟩ ⟨0, 0⟩ ↔
      ∀ e ∈ [(0, Redis.Command.sadd suspendedKey "agent-data-001")],
        Redis.InPlace (fun _ ↦ none) 0 e :=
  call_unchanged_iff (run_halfway "agent-data-001" "2026-05-01T00:00:00+00:00" "Burst"
    "ConnectionError" ⟨0, 0⟩ (by decide)) (served_halfway ..) rfl

/-- A suspension of an agent that is not suspended yet answers 503 and stays in force, if Redis
fails between the two commands. -/
theorem suspend_503_takes_effect :
    ¬ ∀ (call : SuspensionCall) (api api' : IdentityApi) (t : List ApiEvent)
        (out : Except ApiExn Value) (now : Nat) (st st' : Redis.Store)
        (done : List (Nat × Redis.Command)),
      Py.Run call.endpoint api t out api' → ServedUntil now st t done st' → status out = 503 →
        Unchanged call.agentId now st st' api api' := by
  intro h
  have hu := h _ _ _ _ _ _ _ _ _ (run_halfway "agent-data-001" "2026-05-01T00:00:00+00:00"
    "Burst" "ConnectionError" ⟨0, 0⟩ (by decide)) (served_halfway ..) rfl
  have hm := hu.membership 0 le_rfl
  revert hm
  decide

end NhiSentinel.Identity
