import NhiSentinel.Approval.History
import NhiSentinel.Base.Calls
import NhiSentinel.Base.Interleave
import NhiSentinel.Identity.Interleaving
import NhiSentinel.Pep.Mediation

/-!
# Revocation on the shared server

The enforcement points, the identity API and the approval queue use one Redis server. Their
calls run in any order, command by command, and any command may fail. From the command that
suspends an agent until one that reinstates it, every check of the agent that the server answers
refuses it.
-/

namespace NhiSentinel.Identity
open NhiSentinel.Base NhiSentinel.Pep

/-! ### Parties -/

/-- The calls of the parties. -/
inductive StoreCall where
  | pep (c : Pep.Call)
  | identity (c : ApiCall)
  | queue (c : Approval.QueueCall)

/-- What a call is answered. -/
@[reducible] def StoreCall.Reply : StoreCall → Type
  | pep c => c.Reply
  | identity c => c.Reply
  | queue c => c.Reply

/-- A call together with its reply. -/
abbrev StoreEvent := Sigma StoreCall.Reply

/-- The parties: the execution of a tool under an enforcement point, a request to the identity
API, and a call on the approval queue. -/
inductive Party where
  | tool (pep : PolicyEnforcementPoint) (request : ActionRequest)
  | suspension (call : SuspensionCall) (api : IdentityApi)
  | approval (call : Approval.Call)

/-- How a party ends. -/
inductive Ended where
  | tool (out : Except PyExn Value)
  | other

/-- What a party does. -/
def Party.program (rt : Runtime) (codec : Approval.Codec) :
    Party → Prog StoreCall StoreCall.Reply Ended
  | tool pep request =>
    ((executeTool rt ⟨pep, request⟩).embed .pep fun _ reply ↦ reply).bind fun out ↦
      .done (.tool out.1)
  | suspension call api =>
    ((call.endpoint api).embed .identity fun _ reply ↦ reply).bind fun _ ↦ .done .other
  | approval call =>
    ((call.method codec ()).embed .queue fun _ reply ↦ reply).bind fun _ ↦ .done .other

/-- The server and the time. -/
structure SharedStore where
  store : Redis.Store
  now : Nat

/-- How the services answer: a command is sent to the server, and may fail whether or not it
was executed. -/
def SharedStore.Answers (w : SharedStore) : (c : StoreCall) → c.Reply → SharedStore → Prop
  | .pep (.redis c), reply, w' => Redis.Sent w.now w.store c reply w'.store ∧ w'.now = w.now
  | .identity (.redis c), reply, w' => Redis.Sent w.now w.store c reply w'.store ∧ w'.now = w.now
  | .queue (.redis c), reply, w' => Redis.Sent w.now w.store c reply w'.store ∧ w'.now = w.now
  | _, _, w' => w' = w

/-- The services as a world in which time passes. -/
def sharedWorld (ι : Type) : World ι StoreCall StoreCall.Reply SharedStore where
  answer w _ := w.Answers
  background w w' := w'.store = w.store

/-! ### Who touches the suspended agents -/

/-- The set of suspended agents is only checked by the enforcement points, only changed by the
identity API, member by member, and not touched by the queue. -/
def Spares : StoreCall → Prop
  | .pep (.redis c) => c.key = suspendedKey → ∃ a, c = .sismember suspendedKey a
  | .identity (.redis c) =>
    c.key = suspendedKey → ∃ a, c = .sadd suspendedKey a ∨ c = .srem suspendedKey a
  | .queue (.redis c) => c.key ≠ suspendedKey
  | _ => True

private theorem rateKey_ne (agentId : String) (bucket : Nat) :
    rateKey agentId bucket ≠ suspendedKey := by
  intro h
  change "rate:" ++ agentId ++ ":" ++ toString bucket = _ at h
  have hl := congrArg String.toList h
  simp [String.toList_append, suspendedKey] at hl

private theorem approvalKey_ne (requestId : String) : "approval:" ++ requestId ≠ suspendedKey := by
  intro h
  have hl := congrArg String.toList h
  simp [String.toList_append, suspendedKey] at hl

section
variable {rt : Runtime} {s : State}

private theorem spares_service_bind {α β : Type} {c : Pep.Call} {h : c.Reply = Except String α}
    {f : α → Method β} (hc : Spares (.pep c)) (hf : ∀ a, (f a).Calls (Spares ∘ .pep) s) :
    (service c h >>= f).Calls (Spares ∘ .pep) s := by
  have hm : (service c h).Calls (Spares ∘ .pep) s :=
    Py.calls_ask_bind.mpr ⟨hc, fun _ ↦ Py.calls_ofExcept _⟩
  refine hm.bind fun t a s' hr ↦ ?_
  obtain ⟨reply, -, -, rfl⟩ := run_service.mp hr
  exact hf a

private theorem spares_getRedis : Pep.getRedis.Calls (Spares ∘ .pep) s := by
  refine Py.calls_read_bind.mpr ?_
  split
  · trivial
  · refine Py.calls_ask_bind.mpr ⟨trivial, fun reply ↦ ?_⟩
    cases reply <;> trivial

private theorem spares_checkIpBinding : (checkIpBinding rt).Calls (Spares ∘ .pep) s := by
  refine Py.calls_read_bind.mpr (Py.calls_ofExcept_bind.mpr fun ip _ ↦ ?_)
  split <;> trivial

private theorem spares_checkSuspension : checkSuspension.Calls (Spares ∘ .pep) s := by
  refine Py.calls_read_bind.mpr (spares_getRedis.bind fun t b s₁ _ ↦ ?_)
  split
  · refine Py.Calls.handle ?_ fun _ e _ _ ↦ by cases e <;> trivial
    refine spares_service_bind (fun _ ↦ ⟨_, rfl⟩) fun b ↦ ?_
    split <;> trivial
  · trivial

private theorem spares_injectRateLimitCount : injectRateLimitCount.Calls (Spares ∘ .pep) s := by
  refine spares_getRedis.bind fun t b s₁ _ ↦ ?_
  split
  · refine Py.Calls.handle ?_ fun _ _ _ _ ↦ trivial
    refine Py.calls_read_bind.mpr (Py.calls_ask_bind.mpr ⟨trivial, fun now ↦ ?_⟩)
    refine spares_service_bind (fun h ↦ absurd h (rateKey_ne _ _)) fun count ↦ ?_
    split
    · exact spares_service_bind (fun h ↦ absurd h (rateKey_ne _ _)) fun _ ↦ trivial
    · trivial
  · trivial

private theorem spares_evaluate : evaluate.Calls (Spares ∘ .pep) s := by
  refine Py.calls_read_bind.mpr ?_
  dsimp only
  split
  · refine Py.calls_ask_bind.mpr ⟨trivial, fun reply ↦ ?_⟩
    cases reply with
    | requestError => exact Py.calls_ask_bind.mpr ⟨trivial, fun _ ↦ trivial⟩
    | raised cls => trivial
    | response status body =>
      dsimp only
      split
      · exact Py.calls_ofExcept _
      · exact Py.calls_ask_bind.mpr ⟨trivial, fun _ ↦ trivial⟩
  · trivial

private theorem spares_actOn {decision : PolicyDecision} :
    (actOn rt decision).Calls (Spares ∘ .pep) s := by
  refine Py.calls_read_bind.mpr ?_
  dsimp only
  cases decision.effect with
  | deny => trivial
  | allow =>
    have hc : evaluateCedar.Calls (Spares ∘ .pep) s := by
      refine Py.calls_read_bind.mpr ?_
      dsimp only
      split
      · trivial
      · exact Py.calls_ask_bind.mpr ⟨trivial, fun _ ↦ Py.calls_ofExcept _⟩
    refine hc.bind fun t d s' _ ↦ ?_
    split <;> trivial
  | requireApproval =>
    have hq : (queueApproval rt decision).Calls (Spares ∘ .pep) s := by
      refine Py.calls_read_bind.mpr (Py.calls_ask_bind.mpr ⟨trivial, fun requestId ↦ ?_⟩)
      refine spares_service_bind trivial fun _ ↦ Py.calls_ask_bind.mpr ⟨trivial, fun now ↦ ?_⟩
      refine spares_service_bind trivial fun ttl ↦ ?_
      exact spares_service_bind (fun h ↦ absurd h (approvalKey_ne _)) fun _ ↦ trivial
    exact hq.bind fun _ _ _ _ ↦ trivial

private theorem spares_executeTool : (executeTool rt).Calls (Spares ∘ .pep) s := by
  refine Py.Calls.bind ?_ fun _ _ _ _ ↦
    Py.calls_ask_bind.mpr ⟨trivial, fun _ ↦ Py.calls_ofExcept _⟩
  refine spares_checkIpBinding.bind fun _ _ _ _ ↦ ?_
  refine spares_checkSuspension.bind fun _ _ _ _ ↦ ?_
  refine spares_injectRateLimitCount.bind fun _ _ _ _ ↦ ?_
  exact spares_evaluate.bind fun _ _ _ _ ↦ spares_actOn

private theorem spares_endpoint (call : SuspensionCall) (api : IdentityApi) :
    call.endpoint.Calls (Spares ∘ .identity) api := by
  refine Prog.calls_of_runs (fun c ↦ ?_) fun t out hr e he ↦ ?_
  · cases c with
    | client => exact .error ""
    | redis c => exact .error ""
    | clock => exact (0 : Nat)
  have hr : Py.Run call.endpoint api t out.1 out.2 := hr
  obtain ⟨⟨suspendedAt, hi⟩, -, -⟩ := call.run_issues hr
  obtain ⟨c, reply⟩ := e
  cases c with
  | client | clock => trivial
  | redis c =>
    intro hk
    rcases hi.of_mem he with rfl | rfl
    · cases call with
      | suspend agentId req => exact ⟨agentId, .inl rfl⟩
      | unsuspend agentId => exact ⟨agentId, .inr rfl⟩
    · rw [SuspensionCall.note_key] at hk
      exact absurd hk (reasonKey_ne _)

end

section
variable {codec : Approval.Codec} {s : Unit}

private theorem spares_redis_bind {α : Type} {c : Redis.Command}
    {f : c.Reply → Approval.QueueMethod α}
    (hc : c.key ≠ suspendedKey) (hf : ∀ a s, (f a).Calls (Spares ∘ .queue) s) :
    (Approval.redis c >>= f).Calls (Spares ∘ .queue) s := by
  have hm : (Approval.redis c).Calls (Spares ∘ .queue) s :=
    Py.calls_ask_bind.mpr ⟨hc, fun _ ↦ Py.calls_ofExcept _⟩
  exact hm.bind fun _ a s _ ↦ hf a s

private theorem pendingSet_ne : Approval.pendingSet ≠ suspendedKey := by decide

private theorem spares_fetch (requestId : String) :
    (Approval.fetch requestId).Calls (Spares ∘ .queue) s := by
  refine spares_redis_bind (approvalKey_ne _) fun raw s ↦ ?_
  cases raw with
  | none => trivial
  | some json =>
    dsimp only
    split <;> trivial

private theorem spares_get (requestId : String) :
    (Approval.get codec requestId).Calls (Spares ∘ .queue) s := by
  refine (spares_fetch requestId).bind fun t json s _ ↦ ?_
  unfold Approval.decode
  split <;> trivial

private theorem spares_listFrom (ids : List String) :
    (Approval.listFrom codec ids).Calls (Spares ∘ .queue) s := by
  induction ids generalizing s with
  | nil => trivial
  | cons id ids ih =>
    refine Py.Calls.bind (Py.Calls.handle ?_ fun t e s _ ↦ ?_) fun _ _ _ _ ↦
      ih.bind fun _ _ _ _ ↦ trivial
    · exact (spares_get id).bind fun _ _ _ _ ↦ trivial
    · cases e with
      | notFound message => exact spares_redis_bind pendingSet_ne fun _ _ ↦ trivial
      | _ => trivial

private theorem spares_encode (request : Approval.ApprovalRequest) :
    (Approval.encode codec request).Calls (Spares ∘ .queue) s := by
  unfold Approval.encode
  split <;> trivial

private theorem spares_enqueue (submission : Approval.Submission) :
    (submission.enqueue codec).Calls (Spares ∘ .queue) s := by
  refine Py.calls_ask_bind.mpr ⟨trivial, fun now ↦ Py.calls_ask_bind.mpr ⟨trivial, fun id ↦ ?_⟩⟩
  refine Py.Calls.bind ?_ fun _ _ _ _ ↦ (spares_encode _).bind fun _ _ _ _ ↦ ?_
  · unfold Approval.date
    split <;> trivial
  · exact spares_redis_bind (approvalKey_ne _) fun _ _ ↦
      spares_redis_bind pendingSet_ne fun _ _ ↦ trivial

private theorem spares_resolve (resolution : Approval.ApprovalResolution) :
    (Approval.resolve codec resolution).Calls (Spares ∘ .queue) s := by
  refine (spares_fetch _).bind fun _ raw s _ ↦ Py.Calls.bind ?_ fun _ request _ _ ↦ ?_
  · unfold Approval.decode
    split <;> trivial
  · split
    · trivial
    split
    · trivial
    refine Py.calls_ask_bind.mpr ⟨trivial, fun now ↦ (spares_encode _).bind fun _ _ _ _ ↦ ?_⟩
    exact spares_redis_bind (approvalKey_ne _) fun _ _ ↦
      spares_redis_bind pendingSet_ne fun _ _ ↦ trivial

private theorem spares_method (call : Approval.Call) :
    (call.method codec).Calls (Spares ∘ .queue) s := by
  cases call with
  | enqueue submission => exact spares_enqueue submission
  | resolve resolution => exact spares_resolve resolution
  | get requestId => exact spares_get requestId
  | listPending => exact spares_redis_bind pendingSet_ne fun ids _ ↦ spares_listFrom ids

end

/-- Every party spares the set of suspended agents. -/
theorem Party.spares (rt : Runtime) (codec : Approval.Codec) (party : Party) :
    (party.program rt codec).Calls Spares := by
  cases party with
  | tool pep request =>
    exact Prog.Calls.bind (Prog.Calls.embed (Q := Spares) _ _ spares_executeTool)
      fun _ _ _ ↦ trivial
  | suspension call api =>
    exact Prog.Calls.bind (Prog.Calls.embed (Q := Spares) _ _ (spares_endpoint call api))
      fun _ _ _ ↦ trivial
  | approval call =>
    exact Prog.Calls.bind (Prog.Calls.embed (Q := Spares) _ _ (spares_method call))
      fun _ _ _ ↦ trivial

/-! ### Since a suspension -/

/-- A suspension of the agent that the server answered. -/
def Adds (agentId : String) (e : StoreEvent) : Prop :=
  ∃ n : Nat, e = ⟨.identity (.redis (.sadd suspendedKey agentId)), .ok n⟩

/-- A reinstatement of the agent, whether or not the server answers it. -/
def Removes (agentId : String) (e : StoreEvent) : Prop :=
  e.1 = .identity (.redis (.srem suspendedKey agentId))

/-- A check of the agent that the server answered so. -/
def Checks (agentId : String) (b : Bool) (e : StoreEvent) : Prop :=
  e = ⟨.pep (.redis (.sismember suspendedKey agentId)), .ok b⟩

section
variable {ι : Type}

/-- The agent was suspended, and no reinstatement was sent since. -/
def SuspendedIn (agentId : String) (t : List (ι × StoreEvent)) : Prop :=
  ∃ before e after, t = before ++ e :: after ∧ Adds agentId e.2 ∧
    ∀ e' ∈ after, ¬ Removes agentId e'.2

/-- The last call suspends the agent, or it was suspended and is not reinstated by it. -/
theorem SuspendedIn.of_concat {agentId : String} {t : List (ι × StoreEvent)}
    {e : ι × StoreEvent} (h : SuspendedIn agentId (t ++ [e])) :
    Adds agentId e.2 ∨ SuspendedIn agentId t ∧ ¬ Removes agentId e.2 := by
  obtain ⟨before, e', after, ht, ha, hr⟩ := h
  rcases List.eq_nil_or_concat after with rfl | ⟨after, last, rfl⟩
  · obtain ⟨-, hl⟩ := List.append_inj' ht rfl
    cases hl
    exact .inl ha
  · rw [List.concat_eq_append, ← List.cons_append, ← List.append_assoc] at ht
    obtain ⟨rfl, hl⟩ := List.append_inj' ht rfl
    cases hl
    rw [List.concat_eq_append] at hr
    refine .inr ⟨⟨before, e', after, rfl, ha, fun d hd ↦ hr d ?_⟩, hr e ?_⟩
    · exact List.mem_append_left _ hd
    · exact List.mem_append_right _ (List.mem_singleton_self _)

/-- A suspended agent is in the set, and every check that was answered since refuses it. -/
structure Guarded (agentId : String) (t : List (ι × StoreEvent)) (w : SharedStore) : Prop where
  holds : ∃ xs, Redis.HoldsSet w.store suspendedKey xs ∧ (SuspendedIn agentId t → agentId ∈ xs)
  checked : ∀ before e after b, t = before ++ e :: after → Checks agentId b e.2 →
    SuspendedIn agentId before → b = true

variable {agentId : String} {t : List (ι × StoreEvent)} {w w' : SharedStore}

/-- Nothing has been checked at the beginning. -/
theorem Guarded.start {xs : List String} (h : Redis.HoldsSet w.store suspendedKey xs) :
    Guarded agentId ([] : List (ι × StoreEvent)) w where
  holds := by
    refine ⟨xs, h, ?_⟩
    rintro ⟨before, e, after, ht, -⟩
    cases List.append_eq_nil_iff.mp ht.symm |>.2
  checked before e after b ht := by
    cases List.append_eq_nil_iff.mp ht.symm |>.2

private theorem checked_concat {e : ι × StoreEvent} (h : Guarded agentId t w)
    (he : ∀ b, Checks agentId b e.2 → SuspendedIn agentId t → b = true) :
    ∀ before e' after b, t ++ [e] = before ++ e' :: after → Checks agentId b e'.2 →
      SuspendedIn agentId before → b = true := by
  intro before e' after b ht hc hs
  rcases List.eq_nil_or_concat after with rfl | ⟨after, last, rfl⟩
  · obtain ⟨rfl, hl⟩ := List.append_inj' ht rfl
    cases hl
    exact he b hc hs
  · rw [List.concat_eq_append, ← List.cons_append, ← List.append_assoc] at ht
    obtain ⟨rfl, -⟩ := List.append_inj' ht rfl
    exact h.checked before e' after b rfl hc hs

private theorem Guarded.idle (h : Guarded agentId t w) {e : ι × StoreEvent}
    (hst : w'.store suspendedKey = w.store suspendedKey)
    (ha : ¬ Adds agentId e.2) (hc : ∀ b, ¬ Checks agentId b e.2) :
    Guarded agentId (t ++ [e]) w' where
  holds := by
    obtain ⟨xs, hx, hm⟩ := h.holds
    exact ⟨xs, hx.congr hst, fun hs ↦ hm (hs.of_concat.resolve_left ha).1⟩
  checked := checked_concat h fun b hb ↦ absurd hb (hc b)

private theorem sent_sismember {st st' : Redis.Store} {now : Nat} {key member : String}
    {xs : List String} {reply : Except String (Redis.Command.sismember key member).Reply}
    (h : Redis.HoldsSet st key xs) (hs : Redis.Sent now st (.sismember key member) reply st') :
    st' = st ∧ ∀ b, reply = .ok b → b = decide (member ∈ xs) := by
  cases hs with
  | answered =>
    refine ⟨rfl, fun b hb ↦ ?_⟩
    rw [Redis.sismember_of_members (h.members now)] at hb
    cases hb
    rfl
  | failed cls executed => exact ⟨by cases executed <;> rfl, nofun⟩

private theorem Guarded.check (h : Guarded agentId t w) {i : ι} {member : String}
    {reply : Except String (Redis.Command.sismember suspendedKey member).Reply}
    (hs : Redis.Sent w.now w.store (.sismember suspendedKey member) reply w'.store) :
    Guarded agentId (t ++ [(i, ⟨.pep (.redis (.sismember suspendedKey member)), reply⟩)]) w' := by
  obtain ⟨xs, hx, hm⟩ := h.holds
  obtain ⟨hst, hr⟩ := sent_sismember hx hs
  refine ⟨⟨xs, hst ▸ hx, fun hin ↦ hm (hin.of_concat.resolve_left ?_).1⟩, checked_concat h ?_⟩
  · rintro ⟨n, hn⟩
    cases hn
  · intro b hb hin
    cases hb
    rw [hr b rfl]
    exact decide_eq_true (hm hin)

private theorem mem_of_sent_sadd {st st' : Redis.Store} {now : Nat} {key member : String}
    {xs : List String} {reply : Except String (Redis.Command.sadd key member).Reply}
    (h : Redis.HoldsSet st key xs) (hs : Redis.Sent now st (.sadd key member) reply st') :
    ∃ ys, Redis.HoldsSet st' key ys ∧ (∀ x ∈ xs, x ∈ ys) ∧
      ((∃ n, reply = .ok n) → member ∈ ys) := by
  obtain ⟨n, ys, -, hy, hm⟩ := h.sadd now member
  have hsub (x : String) (hx : x ∈ xs) : x ∈ ys := (hm x).mpr (.inr hx)
  cases hs with
  | answered => exact ⟨ys, hy, hsub, fun _ ↦ (hm member).mpr (.inl rfl)⟩
  | failed cls executed =>
    cases executed with
    | true => exact ⟨ys, hy, hsub, nofun⟩
    | false => exact ⟨xs, h, fun _ hx ↦ hx, nofun⟩

private theorem Guarded.add (h : Guarded agentId t w) {i : ι} {member : String}
    {reply : Except String (Redis.Command.sadd suspendedKey member).Reply}
    (hs : Redis.Sent w.now w.store (.sadd suspendedKey member) reply w'.store) :
    Guarded agentId (t ++ [(i, ⟨.identity (.redis (.sadd suspendedKey member)), reply⟩)]) w' := by
  obtain ⟨xs, hx, hm⟩ := h.holds
  obtain ⟨ys, hy, hsub, hadd⟩ := mem_of_sent_sadd hx hs
  refine ⟨⟨ys, hy, fun hin ↦ ?_⟩, checked_concat h fun b hb ↦ nomatch hb⟩
  rcases hin.of_concat with ⟨n, hn⟩ | ⟨hin, -⟩
  · cases hn
    exact hadd ⟨n, rfl⟩
  · exact hsub _ (hm hin)

private theorem Guarded.remove (h : Guarded agentId t w) {i : ι} {member : String}
    {reply : Except String (Redis.Command.srem suspendedKey member).Reply}
    (hs : Redis.Sent w.now w.store (.srem suspendedKey member) reply w'.store) :
    Guarded agentId (t ++ [(i, ⟨.identity (.redis (.srem suspendedKey member)), reply⟩)]) w' := by
  obtain ⟨xs, hx, hm⟩ := h.holds
  obtain ⟨ys, hy, hiff, -⟩ := hx.sent_srem hs
  refine ⟨⟨ys, hy, fun hin ↦ ?_⟩, checked_concat h fun b hb ↦ nomatch hb⟩
  rcases hin.of_concat with ⟨n, hn⟩ | ⟨hin, hr⟩
  · cases hn
  · refine (hiff agentId ?_).mpr (hm hin)
    rintro rfl
    exact hr rfl

/-- One call keeps the guard. -/
theorem Guarded.call (h : Guarded agentId t w) (i : ι) {c : StoreCall} (hc : Spares c)
    {reply : c.Reply} (ha : w.Answers c reply w') :
    Guarded agentId (t ++ [(i, ⟨c, reply⟩)]) w' := by
  have outside {c : StoreCall} {reply : c.Reply}
      (hst : w'.store suspendedKey = w.store suspendedKey)
      (hadd : c ≠ .identity (.redis (.sadd suspendedKey agentId)))
      (hcheck : c ≠ .pep (.redis (.sismember suspendedKey agentId))) :
      Guarded agentId (t ++ [(i, ⟨c, reply⟩)]) w' := by
    refine h.idle hst ?_ ?_
    · rintro ⟨n, hn⟩
      exact hadd (Sigma.mk.inj hn).1
    · intro b hb
      exact hcheck (Sigma.mk.inj hb).1
  have kept {st st' : SharedStore} (hst : st' = st) :
      st'.store suspendedKey = st.store suspendedKey := by rw [hst]
  cases c with
  | pep c =>
    cases c with
    | redis c =>
      by_cases hk : c.key = suspendedKey
      · obtain ⟨member, rfl⟩ := hc hk
        exact h.check ha.1
      · refine outside (ha.1.of_ne (Ne.symm hk)) nofun ?_
        rintro hcheck
        cases hcheck
        exact hk rfl
    | _ => exact outside (kept ha) nofun nofun
  | identity c =>
    cases c with
    | redis c =>
      by_cases hk : c.key = suspendedKey
      · obtain ⟨member, rfl | rfl⟩ := hc hk
        · exact h.add ha.1
        · exact h.remove ha.1
      · refine outside (ha.1.of_ne (Ne.symm hk)) ?_ nofun
        rintro hadd
        cases hadd
        exact hk rfl
    | _ => exact outside (kept ha) nofun nofun
  | queue c =>
    cases c with
    | redis c => exact outside (ha.1.of_ne (Ne.symm hc)) nofun nofun
    | _ => exact outside (kept ha) nofun nofun

/-- The store stays as it is when time passes. -/
theorem Guarded.background (h : Guarded agentId t w) (hb : w'.store = w.store) :
    Guarded agentId t w' where
  holds := by
    obtain ⟨xs, hx, hm⟩ := h.holds
    exact ⟨xs, hb ▸ hx, hm⟩
  checked := h.checked

end

/-! ### Refused executions -/

section
variable {rt : Runtime}

/-- An enforcement that was told of the suspension ends in its denial. -/
theorem enforced_suspended {s : State} {t : List Event} {out : Except PyExn Unit}
    (h : Enforced rt s t out) (hs : t.any (suspends s.request.agentId) = true) :
    ∃ reason, out = .error (.policyDenial s.request.action reason "pep.identity_suspended") := by
  have hw := h.stopped (.inr hs)
  cases h with
  | unbound | illTyped => cases hs
  | suspended _ _ _ reason => exact ⟨reason, rfl⟩
  | unserializable ha => cases hs.symm.trans ha.unsuspended
  | unevaluated | evaluated =>
    cases (hw _ (List.mem_append_right _ List.mem_cons_self) : Stage.policy ∈ _) with
    | tail _ h => cases h with
      | tail _ h => cases h

/-- An execution that was told of the suspension asks nothing but the server, and ends in the
denial. -/
theorem executeTool_suspended {s s' : State} {t : List Event} {out : Except PyExn Value}
    (h : Py.Run (executeTool rt) s t out s') (hs : t.any (suspends s.request.agentId) = true) :
    Within [.connection, .suspension] t ∧
      ∃ reason, out = .error (.policyDenial s.request.action reason "pep.identity_suspended") := by
  rcases executeTool_run h with ⟨e, s₁, he, rfl⟩ | ⟨u, reply, s₁, rfl, he⟩
  · obtain ⟨reason, hr⟩ := enforced_suspended (enforce_run he) hs
    cases hr
    exact ⟨(enforce_run he).stopped (.inr hs), reason, rfl⟩
  · have hu := ((enforce_run he).ok_iff.mp rfl).unsuspended
    rw [List.any_append, hu] at hs
    cases hs

end

/-- Replies with which every party comes to an end. -/
def calmReply : (c : StoreCall) → c.Reply
  | .pep c => services .requestError 0 [] c
  | .identity .client => .error "ConnectionError"
  | .identity (.redis _) => .error "ConnectionError"
  | .identity .clock => (0 : Nat)
  | .queue (.redis _) => .error "ConnectionError"
  | .queue .clock => (0 : Nat)
  | .queue .uuid4 => ""

section
variable {ι : Type} [DecidableEq ι] {rt : Runtime} {codec : Approval.Codec} {parties : ι → Party}
  {w₀ w : SharedStore} {t : List (ι × StoreEvent)} {p : ι → Prog StoreCall StoreCall.Reply Ended}

/-- The guard of an agent holds in every run. -/
theorem guarded_of_reach
    (h : Reach (sharedWorld ι) (fun i ↦ (parties i).program rt codec) w₀ t p w)
    {xs : List String} (h₀ : Redis.HoldsSet w₀.store suspendedKey xs) (agentId : String) :
    Guarded agentId t w := by
  apply h.invariant (I := Guarded agentId)
  · exact .start h₀
  · intro t w w' i c k reply hs hg ha
    exact hg.call i ((Party.spares rt codec (parties i)).of_steps hs).1 ha
  · intro t w w' hg hb
    exact hg.background hb

/-- The calls of the execution of a tool among the others are those of a run of its own. -/
theorem executeTool_of_program {pep : PolicyEnforcementPoint} {request : ActionRequest}
    {t : List StoreEvent} {ended : Ended}
    (h : Prog.Run ((Party.tool pep request).program rt codec) t ended) :
    ∃ u out s', ended = .tool out ∧ Py.Run (executeTool rt) ⟨pep, request⟩ u out s' ∧
      ∀ e : StoreEvent, e ∈ t ↔ ∃ a ∈ u, e = ⟨.pep a.1, a.2⟩ := by
  rw [Party.program, Prog.run_bind] at h
  obtain ⟨t₁, ⟨out, s'⟩, t₂, rfl, h₁, h₂⟩ := h
  obtain ⟨rfl, rfl⟩ := Prog.run_done.mp h₂
  obtain ⟨u, hu, hm, hm'⟩ := Prog.exists_run_of_embed _ _ h₁
  refine ⟨u, out, s', rfl, hu, fun e ↦ ?_⟩
  rw [List.append_nil]
  constructor
  · intro he
    obtain ⟨a, ha, r, rfl, hr⟩ := hm e he
    exact ⟨a, ha, by rw [hr]⟩
  · rintro ⟨a, ha, rfl⟩
    obtain ⟨r, hd, hr⟩ := hm' a ha
    rwa [hr]

/-- The execution of a tool that a check refused asks nothing but the server, and ends in the
denial. -/
theorem refused_of_run {pep : PolicyEnforcementPoint} {request : ActionRequest}
    {t : List StoreEvent} {ended : Ended}
    (h : Prog.Run ((Party.tool pep request).program rt codec) t ended) {c : StoreEvent}
    (hc : Checks request.agentId true c) (hin : c ∈ t) :
    (∀ c ∈ t, ∃ d : Event, c = ⟨.pep d.1, d.2⟩ ∧ d.1.stage ∈ [Stage.connection, .suspension]) ∧
      ∃ reason,
        ended = .tool (.error (.policyDenial request.action reason "pep.identity_suspended")) := by
  obtain ⟨u, out, s', rfl, hu, hm⟩ := executeTool_of_program h
  have hs : u.any (suspends request.agentId) = true := by
    obtain ⟨⟨d, reply⟩, ha, hca⟩ := (hm c).mp hin
    refine List.any_eq_true.mpr ⟨_, ha, ?_⟩
    cases hc.symm.trans hca
    simp [suspends, suspendedKey]
  obtain ⟨hw, reason, rfl⟩ := executeTool_suspended hu hs
  refine ⟨fun d hd ↦ ?_, reason, rfl⟩
  obtain ⟨a, ha, rfl⟩ := (hm d).mp hd
  exact ⟨a, rfl, hw a ha⟩

/-- From the command that suspends an agent to one that reinstates it, every check of the agent
that the server answers refuses it: the execution of the tool asks nothing but the server, and
ends in the denial. -/
theorem suspended_refused
    (h : Reach (sharedWorld ι) (fun i ↦ (parties i).program rt codec) w₀ t p w)
    {xs : List String} (h₀ : Redis.HoldsSet w₀.store suspendedKey xs)
    {pep : PolicyEnforcementPoint} {request : ActionRequest} {i : ι}
    (hi : parties i = .tool pep request) {before after later : List (ι × StoreEvent)}
    {e : ι × StoreEvent} {c : StoreEvent} (ht : t = before ++ e :: (after ++ (i, c) :: later))
    (ha : Adds request.agentId e.2) (hr : ∀ e' ∈ after, ¬ Removes request.agentId e'.2)
    {b : Bool} (hc : Checks request.agentId b c) :
    b = true ∧
      (∀ c ∈ eventsOf i t, ∃ d : Event, c = ⟨.pep d.1, d.2⟩ ∧
        d.1.stage ∈ [Stage.connection, .suspension]) ∧
      ∀ ended, p i = .done ended → ∃ reason,
        ended = .tool (.error (.policyDenial request.action reason "pep.identity_suspended")) := by
  have hb : b = true := by
    refine (guarded_of_reach h h₀ request.agentId).checked (before ++ e :: after) (i, c) later b ?_
      hc ⟨before, e, after, rfl, ha, hr⟩
    rw [ht, List.append_assoc, List.cons_append]
  subst hb
  have hs := h.steps i
  rw [hi] at hs
  have hin : c ∈ eventsOf i t := mem_eventsOf.mpr (by simp [ht])
  refine ⟨rfl, fun d hd ↦ ?_, fun ended he ↦ ?_⟩
  · -- the execution is brought to its end on calm replies
    obtain ⟨v, ended, hv, -⟩ := hs.exists_run calmReply
    exact (refused_of_run hv hc (List.mem_append_left _ hin)).1 d (List.mem_append_left _ hd)
  · rw [he] at hs
    exact (refused_of_run hs hc hin).2

end

/-- The agent is suspended just before one of its requests is checked. -/
private def revoked : Bool → Party
  | true => .suspension (.suspend "agent-data-001" ⟨"Burst", some "2026-05-01T00:00:00+00:00"⟩)
      ⟨0, 0⟩
  | false => .tool ⟨"http://opa:8181", true⟩
      ⟨"agent-data-001", "data", [], "s3:ListBuckets", "*", "task-1", "dev", "10.0.0.4", [], []⟩

private abbrev addRevoked : StoreCall := .identity (.redis (.sadd suspendedKey "agent-data-001"))
private abbrev checkRevoked : StoreCall := .pep (.redis (.sismember suspendedKey "agent-data-001"))

private def revokedStore : SharedStore :=
  ⟨(Redis.exec 0 (.sadd suspendedKey "agent-data-001") fun _ ↦ none).2, 0⟩

private theorem reach_revoked {rt : Runtime} {codec : Approval.Codec} :
    ∃ p w, Reach (sharedWorld Bool) (fun i ↦ (revoked i).program rt codec) ⟨fun _ ↦ none, 0⟩
      [(true, ⟨.identity .client, .ok ()⟩), (true, ⟨addRevoked, .ok (1 : Nat)⟩),
        (false, ⟨checkRevoked, .ok true⟩)] p w := by
  have r₀ : Reach (sharedWorld Bool) (fun i ↦ (revoked i).program rt codec) ⟨fun _ ↦ none, 0⟩
    [] _ _ := .start
  obtain ⟨p₁, r₁, hi₁, ho₁⟩ := r₀.exists_call (i := true) (e := ⟨.identity .client, .ok ()⟩)
    ⟨_, rfl, rfl⟩ rfl
  have hadd : (sharedWorld Bool).answer ⟨fun _ ↦ none, 0⟩ true addRevoked (.ok (1 : Nat))
      revokedStore := ⟨.answered, rfl⟩
  obtain ⟨p₂, r₂, -, ho₂⟩ := r₁.exists_call (e := ⟨addRevoked, .ok (1 : Nat)⟩)
    ⟨_, hi₁, rfl⟩ hadd
  have hf : p₂ false = (revoked false).program rt codec :=
    (ho₂ false (by decide)).trans (ho₁ false (by decide))
  have hcheck : (sharedWorld Bool).answer revokedStore false checkRevoked (.ok true)
      revokedStore := ⟨.answered, rfl⟩
  obtain ⟨p₃, r₃, -, -⟩ := r₂.exists_call (e := ⟨checkRevoked, .ok true⟩) ⟨_, hf, rfl⟩ hcheck
  exact ⟨p₃, _, r₃⟩

/-- An agent that is suspended just before the check is refused. -/
theorem suspended_refused_check :
    ∃ p w, Reach (sharedWorld Bool) (fun i ↦ (revoked i).program asciiRuntime Approval.isoCodec)
      ⟨fun _ ↦ none, 0⟩ [(true, ⟨.identity .client, .ok ()⟩), (true, ⟨addRevoked, .ok (1 : Nat)⟩),
        (false, ⟨checkRevoked, .ok true⟩)] p w ∧
      ∀ ended, p false = .done ended → ∃ reason, ended =
        .tool (.error (.policyDenial "s3:ListBuckets" reason "pep.identity_suspended")) := by
  obtain ⟨p, w, h⟩ := reach_revoked
  have ht : ([(true, ⟨.identity .client, .ok ()⟩), (true, ⟨addRevoked, .ok (1 : Nat)⟩),
      (false, ⟨checkRevoked, .ok true⟩)] : List (Bool × StoreEvent)) =
      [(true, ⟨.identity .client, .ok ()⟩)] ++ (true, ⟨addRevoked, .ok (1 : Nat)⟩) ::
        ([] ++ (false, ⟨checkRevoked, .ok true⟩) :: []) := rfl
  exact ⟨p, w, h, (suspended_refused h (.inl ⟨rfl, rfl⟩) rfl ht ⟨1, rfl⟩ nofun rfl).2.2⟩

end NhiSentinel.Identity
