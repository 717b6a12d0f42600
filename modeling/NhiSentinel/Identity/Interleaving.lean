import NhiSentinel.Base.Interleave
import NhiSentinel.Base.Observe
import NhiSentinel.Base.Register
import NhiSentinel.Identity.Calls

/-!
# Concurrent suspensions and reinstatements

Calls of the identity API at one Redis server, command by command in any order. Which agents are
suspended and which have a reason are kept apart; each is what was written last.
-/

namespace NhiSentinel.Identity
open NhiSentinel.Base

/-- How the surroundings of the service answer a call, and what becomes of the server. -/
inductive Answers : Redis.Store → (c : ApiCall) → c.Reply → Redis.Store → Prop where
  | client (st : Redis.Store) (reply : Except String Unit) : Answers st .client reply st
  | clock (st : Redis.Store) (now : Nat) : Answers st .clock now st
  | redis (now : Nat) {c : Redis.Command} {reply : Except String c.Reply} {st st' : Redis.Store}
      (h : Redis.Sent now st c reply st') : Answers st (.redis c) reply st'

/-- Calls of the service at one server. -/
def redisWorld (ι : Type) : World ι ApiCall ApiCall.Reply Redis.Store where
  answer st _ := Answers st
  background _ _ := False

/-- The programs of calls, with the counters that each begins with. -/
def programs {ι : Type} (call : ι → SuspensionCall) (api : ι → IdentityApi) (i : ι) :
    Prog ApiCall ApiCall.Reply (Except ApiExn Value × IdentityApi) :=
  (call i).endpoint (api i)

/-- A call that has come to an end, and not by a failure of Redis. -/
def Succeeded (p : Prog ApiCall ApiCall.Reply (Except ApiExn Value × IdentityApi)) : Prop :=
  ∃ out api, p = .done (out, api) ∧ status out ≠ 503

/-- An agent has a reason stored exactly if it is suspended. -/
def Explained (st : Redis.Store) : Prop :=
  ∀ now agentId, (Redis.exec now (.sismember suspendedKey agentId) st).1 = .ok true ↔
    ∃ reason, (Redis.exec now (.get (reasonKey agentId)) st).1 = .ok (some reason)

/-- Whether a command adds an agent to the suspended ones or removes it. -/
def marks? (agentId : String) : Redis.Command → Option Bool
  | .sadd key member => if key = suspendedKey ∧ member = agentId then some true else none
  | .srem key member => if key = suspendedKey ∧ member = agentId then some false else none
  | _ => none

/-- Whether a command writes the reason of an agent or deletes it. -/
def notes? (agentId : String) : Redis.Command → Option Bool
  | .set key _ => if key = reasonKey agentId then some true else none
  | .del key => if key = reasonKey agentId then some false else none
  | _ => none

/-- What a command that is sent writes. -/
def ofCommand {ι : Type} (f : Redis.Command → Option Bool) : ι × ApiEvent → Option Bool
  | (_, ⟨.redis c, _⟩) => f c
  | _ => none

/-- Two flags for each agent, as the server keeps them: whether it is suspended, and whether it
has a reason. Neither expires. -/
structure Flags (st : Redis.Store) (suspended explained : String → Bool) : Prop where
  members : ∃ xs, Redis.HoldsSet st suspendedKey xs ∧ ∀ a, a ∈ xs ↔ suspended a = true
  reasons : ∀ a, (∃ reason, st (reasonKey a) = some ⟨.text reason, none⟩) ∧ explained a = true ∨
    st (reasonKey a) = none ∧ explained a = false

/-- Reasons of different agents have different keys. -/
theorem reasonKey_injective : Function.Injective reasonKey := by
  intro a b h
  unfold reasonKey at h
  have ht := congrArg String.toList h
  rw [String.toList_append, String.toList_append] at ht
  exact String.toList_injective (List.append_cancel_left ht)

namespace Flags
variable {st st' : Redis.Store} {M R : String → Bool} {now : Nat}

/-- The check answers the flag of the agent. -/
theorem suspended_iff (h : Flags st M R) (now : Nat) (agentId : String) :
    (Redis.exec now (.sismember suspendedKey agentId) st).1 = .ok true ↔ M agentId = true := by
  obtain ⟨xs, hx, hm⟩ := h.members
  rw [Redis.sismember_of_members (hx.members now), ← hm, Except.ok.injEq, decide_eq_true_eq]

private theorem reason_iff (h : Flags st M R) (now : Nat) (agentId : String) :
    (∃ reason, (Redis.exec now (.get (reasonKey agentId)) st).1 = .ok (some reason)) ↔
      R agentId = true := by
  rcases h.reasons agentId with ⟨⟨reason, hs⟩, hr⟩ | ⟨hs, hr⟩
  · have hl : st.live now (reasonKey agentId) = some ⟨.text reason, none⟩ :=
      Redis.live_of_expires hs (by simp)
    simp [Redis.get_of_live hl, hr]
  · have hl : st.live now (reasonKey agentId) = none := by
      rw [Redis.Store.live, hs, Option.filter_none]
    simp [Redis.get_of_absent hl, hr]

/-- The flags are what is read of the server. -/
theorem explained_iff (h : Flags st M R) : Explained st ↔ ∀ a, M a = R a := by
  simp only [Explained, h.suspended_iff, h.reason_iff]
  constructor
  · intro hx a
    exact Bool.eq_iff_iff.mpr (hx 0 a)
  · intro hx _ a
    rw [hx a]

/-- A command on the set leaves the reasons alone. -/
theorem of_mark {c : Redis.Command} {f : String → Bool} (h : Flags st M R)
    (hc : c.key = suspendedKey)
    (hm : ∀ {xs}, Redis.HoldsSet st suspendedKey xs → (∀ a, a ∈ xs ↔ M a = true) →
      ∃ ys, Redis.HoldsSet (Redis.exec now c st).2 suspendedKey ys ∧ ∀ a, a ∈ ys ↔ f a = true) :
    Flags (Redis.exec now c st).2 f R := by
  obtain ⟨xs, hx, hi⟩ := h.members
  refine ⟨hm hx hi, fun a ↦ ?_⟩
  rw [Redis.exec_of_ne (hc ▸ reasonKey_ne a)]
  exact h.reasons a

/-- A command on a reason leaves the others and the set alone. -/
theorem of_note {c : Redis.Command} {f : String → Bool} {agentId : String} (h : Flags st M R)
    (hc : c.key = reasonKey agentId) (hf : ∀ a, a ≠ agentId → f a = R a)
    (hr : (∃ reason, (Redis.exec now c st).2 (reasonKey agentId) = some ⟨.text reason, none⟩) ∧
        f agentId = true ∨
      (Redis.exec now c st).2 (reasonKey agentId) = none ∧ f agentId = false) :
    Flags (Redis.exec now c st).2 M f := by
  obtain ⟨xs, hx, hi⟩ := h.members
  refine ⟨⟨xs, hx.congr (Redis.exec_of_ne (hc ▸ (reasonKey_ne agentId).symm)), hi⟩, fun a ↦ ?_⟩
  by_cases ha : a = agentId
  · subst ha
    exact hr
  · have hk : reasonKey a ≠ c.key := by
      rw [hc]
      exact fun hk ↦ ha (reasonKey_injective hk)
    rw [Redis.exec_of_ne hk, hf a ha]
    exact h.reasons a

/-- A command that is carried out writes its flag. -/
theorem exec (h : Flags st M R) {call : SuspensionCall} {c : Redis.Command}
    (hc : c = call.mark ∨ ∃ suspendedAt, c = call.note suspendedAt) :
    Flags (Redis.exec now c st).2 (fun a ↦ (marks? a c).getD (M a))
      fun a ↦ (notes? a c).getD (R a) := by
  rcases hc with rfl | ⟨suspendedAt, rfl⟩
  · cases call with
    | suspend agentId req =>
      refine h.of_mark rfl fun {xs} hx hi ↦ ?_
      obtain ⟨n, ys, -, hy, hm⟩ := hx.sadd now agentId
      refine ⟨ys, hy, fun a ↦ ?_⟩
      rw [hm, hi]
      by_cases ha : agentId = a
      · simp [SuspensionCall.mark, marks?, ha]
      · simp [SuspensionCall.mark, marks?, ha, Ne.symm ha]
    | unsuspend agentId =>
      refine h.of_mark rfl fun {xs} hx hi ↦ ?_
      obtain ⟨n, ys, -, hy, hm⟩ := hx.srem now agentId
      refine ⟨ys, hy, fun a ↦ ?_⟩
      rw [hm, hi]
      by_cases ha : agentId = a
      · simp [SuspensionCall.mark, marks?, ha]
      · simp [SuspensionCall.mark, marks?, ha, Ne.symm ha]
  · cases call with
    | suspend agentId req =>
      have hc : ((SuspensionCall.suspend agentId req).note suspendedAt).key =
          reasonKey agentId := rfl
      refine h.of_note hc (fun a ha ↦ ?_) (.inl ⟨⟨_, Redis.Store.put_self ..⟩, ?_⟩)
      · have hk : reasonKey agentId ≠ reasonKey a := fun hk ↦ ha (reasonKey_injective hk).symm
        simp [SuspensionCall.note, notes?, hk]
      · simp [SuspensionCall.note, notes?]
    | unsuspend agentId =>
      have hc : ((SuspensionCall.unsuspend agentId).note suspendedAt).key =
          reasonKey agentId := rfl
      refine h.of_note hc (fun a ha ↦ ?_) (.inr ⟨Redis.Store.put_self .., ?_⟩)
      · have hk : reasonKey agentId ≠ reasonKey a := fun hk ↦ ha (reasonKey_injective hk).symm
        simp [SuspensionCall.note, notes?, hk]
      · simp [SuspensionCall.note, notes?]

end Flags

/-! ### What is promised of interleavings -/

/-- The commands that a call sends are its two. -/
theorem Issues.of_mem {a b c : Redis.Command} {reply : Except String c.Reply} {t : List ApiEvent}
    (h : Issues a b t) (hm : ⟨.redis c, reply⟩ ∈ t) : c = a ∨ c = b := by
  cases h with
  | unconnected cls =>
    rcases List.mem_singleton.mp hm with hm
    cases hm
  | first cls =>
    simp only [List.mem_cons, List.not_mem_nil, or_false] at hm
    rcases hm with h | h <;> cases h
    exact .inl rfl
  | both x hu reply =>
    simp only [List.mem_cons, List.mem_append, hu.mem_redis, false_or, List.not_mem_nil,
      or_false] at hm
    rcases hm with h | h | h <;> cases h
    · exact .inl rfl
    · exact .inr rfl

/-- A call that succeeds has both its commands answered. -/
theorem Issues.both_mem {a b : Redis.Command} {t : List ApiEvent} (h : Issues a b t)
    (ha : Answered t) : (∃ reply, ⟨.redis a, reply⟩ ∈ t) ∧ ∃ reply, ⟨.redis b, reply⟩ ∈ t := by
  cases h with
  | unconnected cls =>
    cases ha.1 _ List.mem_cons_self
  | first cls =>
    obtain ⟨x, hx⟩ := ha.2 a (.error cls) (by simp)
    cases hx
  | both x hu reply => exact ⟨⟨.ok x, by simp⟩, reply, by simp⟩

/-- A reply to each call, with which a call can be completed. -/
private def anyReply : (c : ApiCall) → c.Reply
  | .client => .error ""
  | .redis _ => .error ""
  | .clock => (0 : Nat)

/-- The next command of a call is one of its two. -/
theorem command_of_steps {ι : Type} {call : ι → SuspensionCall} {api : ι → IdentityApi} {i : ι}
    {es : List ApiEvent} {c : Redis.Command}
    {k : Except String c.Reply → Prog ApiCall ApiCall.Reply (Except ApiExn Value × IdentityApi)}
    (h : Prog.Steps (programs call api i) es (.call (.redis c) k)) :
    c = (call i).mark ∨ ∃ suspendedAt, c = (call i).note suspendedAt := by
  have hs := h.trans (Prog.Steps.call (.error "") (.refl _))
  obtain ⟨u, ⟨out, api'⟩, hr, -⟩ := hs.exists_run anyReply
  obtain ⟨⟨suspendedAt, hi⟩, -, -⟩ := (call i).run_issues hr
  have hm : (⟨.redis c, .error ""⟩ : ApiEvent) ∈ es ++ [⟨.redis c, .error ""⟩] ++ u := by simp
  rcases hi.of_mem hm with h | h
  · exact .inl h
  · exact .inr ⟨suspendedAt, h⟩

section
variable {ι : Type} [DecidableEq ι] {call : ι → SuspensionCall} {api : ι → IdentityApi}
  {st₀ st : Redis.Store} {t : List (ι × ApiEvent)}
  {p : ι → Prog ApiCall ApiCall.Reply (Except ApiExn Value × IdentityApi)} {M : String → Bool}

/-- The flags are what was written last, if every command is answered. -/
theorem flags_of_reach (h : Reach (redisWorld ι) (programs call api) st₀ t p st)
    (h₀ : Flags st₀ M M)
    (ha : ∀ i c reply, (i, ⟨.redis c, reply⟩) ∈ t → ∃ a, reply = .ok a) :
    Flags st (fun a ↦ (lastWrite (ofCommand (marks? a)) t).getD (M a))
      fun a ↦ (lastWrite (ofCommand (notes? a)) t).getD (M a) := by
  revert ha
  apply h.invariant (I := fun t st ↦
    (∀ i c reply, (i, ⟨.redis c, reply⟩) ∈ t → ∃ a, reply = .ok a) →
      Flags st (fun a ↦ (lastWrite (ofCommand (marks? a)) t).getD (M a))
        fun a ↦ (lastWrite (ofCommand (notes? a)) t).getD (M a))
  · intro _
    exact h₀
  · intro t st st' i c k reply hs ih hw ha
    have hf := ih fun j c reply hm ↦ ha j c reply (List.mem_append_left _ hm)
    simp only [lastWrite_append_singleton, Option.getD_or]
    cases hw with
    | client => exact hf
    | clock => exact hf
    | @redis now c reply _ _ hr =>
      have hok := ha i c reply (List.mem_append_right _ (List.mem_singleton_self _))
      rw [hr.store_of_ok hok]
      exact hf.exec (command_of_steps hs)
  · intro t st st' _ hb
    cases hb

/-- Every call that has begun has succeeded. -/
def Settled (t : List (ι × ApiEvent))
    (p : ι → Prog ApiCall ApiCall.Reply (Except ApiExn Value × IdentityApi)) : Prop :=
  ∀ i, eventsOf i t ≠ [] → Succeeded (p i)

/-- A call that has begun was answered throughout, and sent its two commands. -/
theorem Settled.issues (hp : Settled t p) (h : Reach (redisWorld ι) (programs call api) st₀ t p st)
    {i : ι} {e : ApiEvent} (he : (i, e) ∈ t) :
    ∃ suspendedAt, Issues (call i).mark ((call i).note suspendedAt) (eventsOf i t) ∧
      Answered (eventsOf i t) := by
  have hn : eventsOf i t ≠ [] := List.ne_nil_of_mem (mem_eventsOf.mpr he)
  obtain ⟨out, api', hd, hs⟩ := hp i hn
  obtain ⟨⟨suspendedAt, hi⟩, h503, -⟩ := (call i).run_issues (hd ▸ h.steps i)
  exact ⟨suspendedAt, hi, not_not.mp fun ha ↦ hs (h503.mpr ha)⟩

/-- Whether a call suspends its agent. -/
def SuspensionCall.suspends : SuspensionCall → Bool
  | suspend .. => true
  | unsuspend _ => false

private theorem marks?_mark {agentId : String} {call : SuspensionCall} {b : Bool} :
    marks? agentId call.mark = some b ↔ call.agentId = agentId ∧ b = call.suspends := by
  cases call <;>
    simp [SuspensionCall.mark, marks?, SuspensionCall.agentId, SuspensionCall.suspends, eq_comm]

private theorem notes?_note {agentId suspendedAt : String} {call : SuspensionCall} {b : Bool} :
    notes? agentId (call.note suspendedAt) = some b ↔
      call.agentId = agentId ∧ b = call.suspends := by
  cases call <;>
    simp [SuspensionCall.note, notes?, SuspensionCall.agentId, SuspensionCall.suspends,
      reasonKey_injective.eq_iff, eq_comm]

private theorem marks?_note {agentId suspendedAt : String} {call : SuspensionCall} :
    marks? agentId (call.note suspendedAt) = none := by
  cases call <;> rfl

private theorem notes?_mark {agentId : String} {call : SuspensionCall} :
    notes? agentId call.mark = none := by
  cases call <;> rfl

/-- A flag of an agent is written by a call on the agent, which writes both to its kind. -/
theorem Settled.written (hp : Settled t p)
    (h : Reach (redisWorld ι) (programs call api) st₀ t p st) {agentId : String}
    {e : ι × ApiEvent} {b : Bool} (he : e ∈ t)
    (hb : ofCommand (marks? agentId) e = some b ∨ ofCommand (notes? agentId) e = some b) :
    (call e.1).agentId = agentId ∧ b = (call e.1).suspends ∧
      (∃ e' ∈ t, e'.1 = e.1 ∧ ofCommand (marks? agentId) e' = some b) ∧
        ∃ e' ∈ t, e'.1 = e.1 ∧ ofCommand (notes? agentId) e' = some b := by
  obtain ⟨i, c, reply⟩ := e
  obtain ⟨suspendedAt, hi, ha⟩ := hp.issues h he
  obtain ⟨⟨r, hr⟩, r', hr'⟩ := hi.both_mem ha
  suffices hk : (call i).agentId = agentId ∧ b = (call i).suspends from
    ⟨hk.1, hk.2, ⟨_, mem_eventsOf.mp hr, rfl, marks?_mark.mpr hk⟩,
      _, mem_eventsOf.mp hr', rfl, notes?_note.mpr hk⟩
  cases c with
  | client | clock => rcases hb with hb | hb <;> cases hb
  | redis c =>
    change marks? agentId c = some b ∨ notes? agentId c = some b at hb
    rcases hi.of_mem (mem_eventsOf.mpr he) with rfl | rfl
    · rw [notes?_mark] at hb
      exact marks?_mark.mp (hb.resolve_right (by simp))
    · rw [marks?_note] at hb
      exact notes?_note.mp (hb.resolve_left (by simp))

/-- Each call that has begun writes both flags of its agent, with the same value. -/
theorem Settled.paired (hp : Settled t p)
    (h : Reach (redisWorld ι) (programs call api) st₀ t p st) (agentId : String) :
    Paired Prod.fst (fun i ↦ (call i).suspends) (ofCommand (marks? agentId))
        (ofCommand (notes? agentId)) t ∧
      Paired Prod.fst (fun i ↦ (call i).suspends) (ofCommand (notes? agentId))
        (ofCommand (marks? agentId)) t := by
  constructor
  · intro e he b hb
    obtain ⟨-, hv, -, hn⟩ := hp.written h he (.inl hb)
    exact ⟨hv, hn⟩
  · intro e he b hb
    obtain ⟨-, hv, hm, -⟩ := hp.written h he (.inr hb)
    exact ⟨hv, hm⟩

/-- Once every call that has begun has succeeded, the flags are what was written last. -/
theorem Settled.flags (hp : Settled t p) (h : Reach (redisWorld ι) (programs call api) st₀ t p st)
    (h₀ : Flags st₀ M M) :
    Flags st (fun a ↦ (lastWrite (ofCommand (marks? a)) t).getD (M a))
      fun a ↦ (lastWrite (ofCommand (notes? a)) t).getD (M a) := by
  apply flags_of_reach h h₀
  intro i c reply hm
  obtain ⟨suspendedAt, -, ha⟩ := hp.issues h hm
  exact ha.2 c reply (mem_eventsOf.mpr hm)

/-- Calls of different kinds on one agent that do not overlap leave a reason exactly for those
that are suspended. -/
theorem explained_of_serial (h : Reach (redisWorld ι) (programs call api) st₀ t p st)
    (h₀ : Flags st₀ M M) (hp : Settled t p)
    (hs : ∀ i j, (call i).agentId = (call j).agentId → (call i).suspends ≠ (call j).suspends →
      Before Prod.fst t i j ∨ Before Prod.fst t j i) : Explained st := by
  refine (hp.flags h h₀).explained_iff.mpr fun a ↦ ?_
  obtain ⟨hm, hn⟩ := hp.paired h a
  rw [lastWrite_eq_of_serial hm hn]
  intro e he e' he' v v' hv hv' hne
  obtain ⟨ha, rfl, -⟩ := hp.written h he (.inl hv)
  obtain ⟨ha', rfl, -⟩ := hp.written h he' (.inr hv')
  exact hs _ _ (ha.trans ha'.symm) hne

/-- Once every call that has begun has succeeded, a reason is stored exactly for the agents that
are suspended if and only if, for each agent, what was written last of its membership and of its
reason comes from calls of one kind. -/
theorem settled_explained_iff (h : Reach (redisWorld ι) (programs call api) st₀ t p st)
    (h₀ : Flags st₀ M M) (hp : Settled t p) :
    Explained st ↔ ∀ agentId, lastWrite (ofCommand (marks? agentId)) t =
      lastWrite (ofCommand (notes? agentId)) t := by
  rw [(hp.flags h h₀).explained_iff]
  refine forall_congr' fun a ↦ ⟨fun he ↦ ?_, fun he ↦ by rw [he]⟩
  obtain ⟨hm, hn⟩ := hp.paired h a
  cases hl : lastWrite (ofCommand (marks? a)) t with
  | none => exact (hn.lastWrite_eq_none hl).symm
  | some b =>
    cases hl' : lastWrite (ofCommand (notes? a)) t with
    | none =>
      rw [hm.lastWrite_eq_none hl'] at hl
      cases hl
    | some b' =>
      rw [hl, hl'] at he
      exact congrArg some he

end

/-! ### A reinstatement between the commands of a suspension -/

/-- One agent is suspended and reinstated at the same time. -/
private def racing : Bool → SuspensionCall
  | true => .suspend "agent-data-001" ⟨"Burst", some "2026-05-01T00:00:00+00:00"⟩
  | false => .unsuspend "agent-data-001"

private abbrev addAgent : Redis.Command := .sadd suspendedKey "agent-data-001"
private abbrev removeAgent : Redis.Command := .srem suspendedKey "agent-data-001"
private abbrev writeReason : Redis.Command :=
  .set (reasonKey "agent-data-001") "2026-05-01T00:00:00+00:00|Burst"
private abbrev deleteReason : Redis.Command := .del (reasonKey "agent-data-001")

private theorem reach_race :
    ∃ t p st, Reach (redisWorld Bool) (programs racing fun _ ↦ ⟨0, 0⟩) (fun _ ↦ none) t p st ∧
      Settled t p ∧ st suspendedKey = none ∧
        ∃ reason, st (reasonKey "agent-data-001") = some ⟨.text reason, none⟩ := by
  have r₀ : Reach (redisWorld Bool) (programs racing fun _ ↦ ⟨0, 0⟩) (fun _ ↦ none) [] _ _ :=
    .start
  obtain ⟨p₁, r₁, hi₁, ho₁⟩ := r₀.exists_call (i := true) (e := ⟨.client, .ok ()⟩) ⟨_, rfl, rfl⟩
    (.client _ _)
  obtain ⟨p₂, r₂, hi₂, ho₂⟩ := r₁.exists_call (i := true) (e := ⟨.redis addAgent, .ok 1⟩)
    ⟨_, hi₁, rfl⟩ (.redis 0 .answered)
  have hf : p₂ false = programs racing (fun _ ↦ ⟨0, 0⟩) false :=
    (ho₂ false (by decide)).trans (ho₁ false (by decide))
  obtain ⟨p₃, r₃, hi₃, ho₃⟩ := r₂.exists_call (i := false) (e := ⟨.client, .ok ()⟩)
    ⟨_, hf, rfl⟩ (.client _ _)
  obtain ⟨p₄, r₄, hi₄, ho₄⟩ := r₃.exists_call (i := false) (e := ⟨.redis removeAgent, .ok 1⟩)
    ⟨_, hi₃, rfl⟩ (.redis 0 .answered)
  obtain ⟨p₅, r₅, hi₅, ho₅⟩ := r₄.exists_call (i := false) (e := ⟨.redis deleteReason, .ok 0⟩)
    ⟨_, hi₄, rfl⟩ (.redis 0 .answered)
  have ht : p₅ true = p₂ true := (ho₅ true (by decide)).trans
    ((ho₄ true (by decide)).trans (ho₃ true (by decide)))
  obtain ⟨p₆, r₆, hi₆, ho₆⟩ := r₅.exists_call (i := true) (e := ⟨.redis writeReason, .ok ()⟩)
    ⟨_, ht.trans hi₂, rfl⟩ (.redis 0 .answered)
  refine ⟨_, p₆, _, r₆, fun i _ ↦ ?_, rfl, _, rfl⟩
  cases i with
  | true => exact ⟨_, _, hi₆, by decide⟩
  | false => exact ⟨_, _, (ho₆ false (by decide)).trans hi₅, by decide⟩

/-- On an empty server no agent is suspended or has a reason. -/
theorem flags_empty : Flags (fun _ ↦ none) (fun _ ↦ false) fun _ ↦ false where
  members := ⟨[], .inl ⟨rfl, rfl⟩, by simp⟩
  reasons _ := .inr ⟨rfl, rfl⟩

/-- A suspension and a reinstatement that cross each other. -/
theorem settled_explained_iff_race :
    ∃ t p st, Reach (redisWorld Bool) (programs racing fun _ ↦ ⟨0, 0⟩) (fun _ ↦ none) t p st ∧
      (Explained st ↔ ∀ agentId, lastWrite (ofCommand (marks? agentId)) t =
        lastWrite (ofCommand (notes? agentId)) t) := by
  obtain ⟨t, p, st, hr, hp, -⟩ := reach_race
  exact ⟨t, p, st, hr, settled_explained_iff hr flags_empty hp⟩

/-- A reinstatement between the two commands of a suspension leaves the reason of an agent that
is not suspended, although both calls succeed. -/
theorem race_leaves_reason :
    ¬ ∀ (call : Bool → SuspensionCall) (api : Bool → IdentityApi) (st₀ st : Redis.Store)
        (t : List (Bool × ApiEvent))
        (p : Bool → Prog ApiCall ApiCall.Reply (Except ApiExn Value × IdentityApi))
        (M : String → Bool),
      Reach (redisWorld Bool) (programs call api) st₀ t p st → Flags st₀ M M → Settled t p →
        Explained st := by
  intro h
  obtain ⟨t, p, st, hr, hp, hs, reason, hk⟩ := reach_race
  have he := h _ _ _ _ _ _ _ hr flags_empty hp 0 "agent-data-001"
  have hn : (Redis.exec 0 (.sismember suspendedKey "agent-data-001") st).1 = .ok false :=
    Redis.sismember_of_stored fun e he ↦ by simp [hs] at he
  have hg : (Redis.exec 0 (.get (reasonKey "agent-data-001")) st).1 = .ok (some reason) :=
    Redis.get_of_live (Redis.live_of_expires hk (by simp))
  rw [hn] at he
  cases he.mpr ⟨reason, hg⟩

end NhiSentinel.Identity
