import NhiSentinel.Agents.System
import NhiSentinel.Approval.Concurrent

/-!
# Approvals that stand

A record of the approval queue that approves a request stays what it is: an enforcement point and
an `enqueue` write under the identifier that they are given, and a `resolve` writes only where it
has read a pending record. So a caller that marks a request once it has been approved finds the
approval in the store when the handler is called, unless it expires before.
-/

namespace NhiSentinel.Agents
open NhiSentinel.Base NhiSentinel.Pep NhiSentinel.Approval NhiSentinel.Policy NhiSentinel.Rego

/-! ### Records -/

/-- The record of a request, if the store holds one that can be read. -/
def Cluster.record? (codec : Codec) (w : Cluster) (requestId : String) : Option ApprovalRequest :=
  match w.store.live w.now (key requestId) with
  | some ⟨.text text, _⟩ => ApprovalRequest.validateJson? codec text
  | _ => none

/-- A record approves an action, by someone else than the agent. -/
structure Approves (r : ApprovalRequest) (agentId action resourceArn taskId : String) : Prop where
  approved : r.status = .approved
  ofAgent : r.agentId = agentId
  ofAction : r.action = action
  onResource : r.resourceArn = resourceArn
  inTask : r.taskId = taskId
  approver : ∃ approver, r.approverIdentity = some approver ∧ approver ≠ agentId

/-- The store holds an approval of an action. -/
def ApprovedIn (codec : Codec) (w : Cluster) (agentId action resourceArn taskId : String) : Prop :=
  ∃ requestId r, w.record? codec requestId = some r ∧
    Approves r agentId action resourceArn taskId

/-- A record that can be read is a live string. -/
theorem Cluster.live_of_record? {codec : Codec} {w : Cluster} {requestId : String}
    {r : ApprovalRequest} (h : w.record? codec requestId = some r) :
    ∃ text expires, w.store.live w.now (key requestId) = some ⟨.text text, expires⟩ ∧
      ApprovalRequest.validateJson? codec text = some r := by
  unfold Cluster.record? at h
  split at h
  · next text expires hl => exact ⟨text, expires, hl, h⟩
  · cases h

/-- What a live string is read as. -/
theorem Cluster.record?_of_live {codec : Codec} {w : Cluster} {requestId text : String}
    {expires : Option Nat} (h : w.store.live w.now (key requestId) = some ⟨.text text, expires⟩) :
    w.record? codec requestId = ApprovalRequest.validateJson? codec text := by
  rw [Cluster.record?, h]

/-! ### Who writes a record -/

/-- The identifier that a new record is given. -/
def identifier? : SystemEvent → Option String
  | ⟨.agent (.pep .uuid4), requestId⟩ => some requestId
  | ⟨.queue .uuid4, requestId⟩ => some requestId
  | _ => none

/-- The command of a call to the server. -/
def SystemCall.command? : SystemCall → Option Redis.Command
  | .agent (.pep (.redis c)) => some c
  | .queue (.redis c) => some c
  | _ => none

/-- A party knows of a request: its record was given the identifier by it, or was looked up. -/
def Involved (requestId : String) (u : List SystemEvent) : Prop :=
  ∃ e ∈ u, identifier? e = some requestId ∨ e.1 = .queue (.redis (.get (key requestId)))

/-- A party may write a record: it was given the identifier, or has read a pending record. -/
def Entitled (codec : Codec) (requestId : String) (u : List SystemEvent) : Prop :=
  (∃ e ∈ u, identifier? e = some requestId) ∨
    ∃ text r, (⟨.queue (.redis (.get (key requestId))), .ok (some text)⟩ : SystemEvent) ∈ u ∧
      ApprovalRequest.validateJson? codec text = some r ∧ r.status = .pending

/-- Replies with which every party comes to an end and learns nothing of a request. -/
private def oblivious (requestId : String) : (c : SystemCall) → c.Reply
  | .agent (.pep .uuid4) => requestId ++ "0"
  | .queue .uuid4 => requestId ++ "0"
  | c => calm c

private theorem not_entitled_oblivious {codec : Codec} {requestId : String} {u : List SystemEvent}
    (h : ∀ e ∈ u, e.2 = oblivious requestId e.1) : ¬ Entitled codec requestId u := by
  have hne : requestId ++ "0" ≠ requestId := by
    intro h
    have hl := congrArg String.length h
    simp at hl
  rintro (⟨⟨c, r⟩, he, hi⟩ | ⟨text, r, he, -⟩)
  · obtain rfl : r = oblivious requestId c := h _ he
    unfold identifier? at hi
    split at hi
    · next heq =>
      cases heq
      exact hne (Option.some.inj hi)
    · next heq =>
      cases heq
      exact hne (Option.some.inj hi)
    · cases hi
  · cases h _ he

variable {rt : Runtime} {codec : Codec} {requestId : String}

/-- What entitles to a write is in one of two parts of the calls. -/
theorem entitled_append {u v : List SystemEvent} : Entitled codec requestId (u ++ v) ↔
    Entitled codec requestId u ∨ Entitled codec requestId v := by
  simp only [Entitled, List.mem_append, or_and_right, exists_or]
  exact or_or_or_comm

/-- Whoever is entitled to write a record knows of the request. -/
theorem Entitled.involved {u : List SystemEvent} (h : Entitled codec requestId u) :
    Involved requestId u := by
  rcases h with ⟨e, he, hi⟩ | ⟨text, r, he, -⟩
  · exact ⟨e, he, .inl hi⟩
  · exact ⟨_, he, .inr rfl⟩

/-- In a complete run, whoever writes a record is entitled to. -/
theorem Party.entitled_of_run {party : Party} {t : List SystemEvent}
    (h : Prog.Run (party.program rt codec) t ()) {c : SystemCall} {reply : c.Reply}
    (hm : (⟨c, reply⟩ : SystemEvent) ∈ t) {d : Redis.Command} (hc : c.command? = some d)
    (hr : d.rewrites = true) (hk : d.key = key requestId) : Entitled codec requestId t := by
  cases party with
  | run agent pep args =>
    obtain ⟨u, out, s', hu, ht⟩ := run_of_program h
    obtain ⟨⟨a, r⟩, ha, he⟩ := (ht _).mp hm
    cases he
    cases a with
    | pep a =>
      cases a with
      | redis a =>
        cases hc
        obtain ⟨p, request, x, out', p', hx, hmem, hsub⟩ :=
          (invoke_run hu).enforced (e := ⟨.redis d, _⟩) ha
        have hid := (enforce_run hx).uuid4_of_rewrites hmem hr hk
        exact .inl ⟨_, (ht _).mpr ⟨_, hsub _ hid, rfl⟩, rfl⟩
      | _ => cases hc
    | _ => cases hc
  | enqueue agentId action resourceArn taskId policyRef riskLevel tokenJti context ttlSeconds =>
    rw [Party.program, Prog.run_bind] at h
    obtain ⟨t₁, ⟨out, s'⟩, t₂, rfl, h₁, h₂⟩ := h
    obtain ⟨rfl, -⟩ := Prog.run_done.mp h₂
    rw [List.append_nil] at hm ⊢
    obtain ⟨u, hu, ht, ht'⟩ := Prog.exists_run_of_embed _ _ h₁
    obtain ⟨⟨a, r⟩, ha, r', he, rfl⟩ := ht _ hm
    cases he
    cases a with
    | redis a =>
      cases hc
      obtain ⟨requestId', hk', hid⟩ := uuid4_of_enqueue hu ha hr
      obtain rfl : requestId' = requestId := key_injective (hk'.symm.trans hk)
      obtain ⟨r, hd, rfl⟩ := ht' _ hid
      exact .inl ⟨_, hd, rfl⟩
    | _ => cases hc
  | resolve resolution =>
    rw [Party.program, Prog.run_bind] at h
    obtain ⟨t₁, ⟨out, s'⟩, t₂, rfl, h₁, h₂⟩ := h
    obtain ⟨rfl, -⟩ := Prog.run_done.mp h₂
    rw [List.append_nil] at hm ⊢
    obtain ⟨u, hu, ht, ht'⟩ := Prog.exists_run_of_embed _ _ h₁
    obtain ⟨⟨a, r⟩, ha, r', he, rfl⟩ := ht _ hm
    cases he
    cases a with
    | redis a =>
      cases hc
      obtain ⟨hk', text, r, hg, hv, hp⟩ := get_of_resolve hu ha hr
      obtain rfl : resolution.requestId = requestId := key_injective (hk'.symm.trans hk)
      obtain ⟨r', hd, rfl⟩ := ht' _ hg
      exact .inr ⟨text, r, hd, hv, hp⟩
    | _ => cases hc

/-- Whoever is about to write a record is entitled to. -/
theorem Party.entitled {party : Party} {u : List SystemEvent} {c : SystemCall}
    {k : c.Reply → Prog SystemCall SystemCall.Reply Unit}
    (h : Prog.Steps (party.program rt codec) u (.call c k)) {d : Redis.Command}
    (hc : c.command? = some d) (hr : d.rewrites = true) (hk : d.key = key requestId) :
    Entitled codec requestId u := by
  obtain ⟨v, ⟨⟩, hv, ho⟩ :=
    (h.trans (.call (oblivious requestId c) (.refl _))).exists_run (oblivious requestId)
  have he : Entitled codec requestId (u ++ ([⟨c, oblivious requestId c⟩] ++ v)) := by
    rw [← List.append_assoc]
    exact Party.entitled_of_run hv (List.mem_append_left _ (List.mem_append_right _
      (List.mem_singleton_self _))) hc hr hk
  refine (entitled_append.mp he).resolve_right (not_entitled_oblivious fun e he ↦ ?_)
  rcases List.mem_append.mp he with he | he
  · cases List.mem_singleton.mp he
    rfl
  · exact ho e he

/-! ### Approvals stay -/

section
variable {ι : Type} [DecidableEq ι] {policy : PolicyServer} {parties : ι → Party}
  {w₀ v w : Cluster} {t before after : List (ι × SystemEvent)}
  {p q : ι → Prog SystemCall SystemCall.Reply Unit}

/-- No party that knows of a request is under way. -/
def Settled (requestId : String) (t : List (ι × SystemEvent))
    (p : ι → Prog SystemCall SystemCall.Reply Unit) : Prop :=
  ∀ i, Involved requestId (eventsOf i t) → ∃ a, p i = .done a

/-- A command that may not write a string leaves it where it is, also where it fails. -/
theorem Cluster.Executes.kept {c : Redis.Command} {reply : Except String c.Reply} {w' : Cluster}
    (h : w.Executes c reply w') {k text : String} {expires : Option Nat}
    (hl : w.store.live w.now k = some ⟨.text text, expires⟩)
    (hc : c.key = k → c.rewrites = false) : w'.store k = w.store k := by
  have hx := Redis.exec_text hl hc
  rcases h with ⟨-, rfl⟩ | ⟨-, rfl | rfl⟩
  · exact hx
  · rfl
  · exact hx

/-- While a string is there, it is what a reading answers. -/
theorem Cluster.Executes.text_eq {k text text' : String} {expires : Option Nat} {w' : Cluster}
    (h : w.Executes (.get k) (.ok (some text')) w')
    (hl : w.store.live w.now k = some ⟨.text text, expires⟩) : text' = text := by
  rcases h with ⟨hr, -⟩ | ⟨⟨cls, hr⟩, -⟩
  · rw [Redis.exec, Redis.get, hl] at hr
    cases hr
    rfl
  · cases hr

/-- A call that writes no string leaves it where it is. -/
theorem Cluster.Answers.kept {c : SystemCall} {reply : c.Reply} {w' : Cluster}
    (h : w.Answers policy c reply w') {k text : String} {expires : Option Nat}
    (hl : w.store.live w.now k = some ⟨.text text, expires⟩)
    (hc : ∀ d, c.command? = some d → d.key = k → d.rewrites = false) :
    w'.store k = w.store k := by
  cases c with
  | agent c =>
    cases c with
    | pep c =>
      cases c with
      | redis d => exact h.2.kept hl (hc d rfl)
      | clock => rw [h.2]
      | _ => rw [h.2]
    | clock => rw [h.2]
    | _ => rw [show w' = w from h]
  | queue c =>
    cases c with
    | redis d => exact Cluster.Executes.kept h hl (hc d rfl)
    | clock => rw [h.2]
    | uuid4 => rw [show w' = w from h]

/-- A call takes no time. -/
theorem Cluster.Answers.now_eq {c : SystemCall} {reply : c.Reply} {w' : Cluster}
    (h : w.Answers policy c reply w') : w'.now = w.now := by
  have executed {d : Redis.Command} {reply : Except String d.Reply}
      (hx : w.Executes d reply w') : w'.now = w.now := by
    rcases hx with ⟨-, rfl⟩ | ⟨-, rfl | rfl⟩ <;> rfl
  cases c with
  | agent c =>
    cases c with
    | pep c =>
      cases c with
      | redis d => exact executed h.2
      | clock => rw [h.2]
      | _ => rw [h.2]
    | clock => rw [h.2]
    | _ => rw [show w' = w from h]
  | queue c =>
    cases c with
    | redis d => exact executed h
    | clock => rw [h.2]
    | uuid4 => rw [show w' = w from h]

/-- From a state in which no party that knows of a request is under way, its record stays as long
as it does not expire, unless it is pending. -/
theorem record?_kept
    (h₁ : Reach (system ι policy) (fun i ↦ (parties i).program rt codec) w₀ before q v)
    (h₂ : Reach (system ι policy) q v after p w) (hs : Settled requestId before q)
    (hf : ∀ d ∈ after, identifier? d.2 ≠ some requestId) {r : ApprovalRequest}
    (hr : Cluster.record? codec ⟨v.store, w.now⟩ requestId = some r) (ha : r.status ≠ .pending) :
    w.record? codec requestId = some r := by
  obtain ⟨text, expires, hl, hv⟩ := Cluster.live_of_record? hr
  -- up to the time at which it is looked for, the record is there and read as it is
  let found (text : String) : SystemEvent :=
    ⟨.queue (.redis (.get (key requestId))), .ok (some text)⟩
  let I (t : List (ι × SystemEvent)) (u : Cluster) : Prop := u.now ≤ w.now →
    (∀ d ∈ t, identifier? d.2 ≠ some requestId) →
      u.store (key requestId) = v.store (key requestId) ∧
        ∀ i text', (i, found text') ∈ t → text' = text
  have hI : I after w := by
    refine h₂.invariant (I := I) (fun _ _ ↦ ⟨rfl, nofun⟩) ?_ ?_
    · intro t u u' i c k reply hsteps hI hx hn hf
      have hn' : u.now ≤ w.now := hx.now_eq ▸ hn
      obtain ⟨hst, hg⟩ := hI hn' fun d hd ↦ hf d (List.mem_append_left _ hd)
      have hlu : u.store.live u.now (key requestId) = some ⟨.text text, expires⟩ := by
        rw [Redis.live_congr hst]
        exact Redis.live_of_later hl hn'
      have hc : ∀ d, c.command? = some d → d.key = key requestId → d.rewrites = false := by
        intro d hd hk
        by_contra hw
        have he := Party.entitled ((h₁.steps i).trans hsteps) hd
          (Bool.eq_true_of_not_eq_false hw) hk
        rcases entitled_append.mp he with he | ⟨e, he, hi⟩ | ⟨text', r', he, hv', hp⟩
        · obtain ⟨a, hq⟩ := hs i he.involved
          rw [hq] at hsteps
          generalize eventsOf i t = l at hsteps
          cases hsteps
        · exact hf (i, e) (List.mem_append_left _ (mem_eventsOf.mp he)) hi
        · cases hg i text' (mem_eventsOf.mp he)
          cases hv.symm.trans hv'
          exact ha hp
      refine ⟨(hx.kept hlu hc).trans hst, fun j text' hm ↦ ?_⟩
      rcases List.mem_append.mp hm with hm | hm
      · exact hg j text' hm
      · cases List.mem_singleton.mp hm
        exact Cluster.Executes.text_eq hx hlu
    · intro t u u' hI hb hn hf
      obtain ⟨hst, hg⟩ := hI (hb.2.trans hn) hf
      exact ⟨hb.1 ▸ hst, hg⟩
  obtain ⟨hst, -⟩ := hI le_rfl hf
  have hlw : w.store.live w.now (key requestId) = some ⟨.text text, expires⟩ := by
    rw [Redis.live_congr hst]
    exact hl
  exact (Cluster.record?_of_live hlw).trans hv

/-! ### The approval gate -/

/-- Where a tool handler is about to be called for a request that the gate is for, the store
holds an approval of it. -/
def HandlersApproved (codec : Codec) (parties : ι → Party)
    (p : ι → Prog SystemCall SystemCall.Reply Unit) (w : Cluster) : Prop :=
  ∀ i agent pep args, parties i = .run agent pep args →
    ∀ key state k, p i = .call (.agent (.handler key state)) k →
      ∀ spec, agent.registry.get args.toolKey = .ok spec →
        Main.Gated agent.agentType.value spec.action →
          ApprovedIn codec w agent.agentId spec.action state.resourceArn state.taskId

/-- When a party began, an action was approved in the store: no party that knows of the approval
was under way, its identifier was not given out again since, and it has not expired. -/
def BegunApproved (codec : Codec) (policy : PolicyServer)
    (p₀ : ι → Prog SystemCall SystemCall.Reply Unit) (w₀ : Cluster) (t : List (ι × SystemEvent))
    (p : ι → Prog SystemCall SystemCall.Reply Unit) (w : Cluster) (i : ι)
    (agentId action resourceArn taskId : String) : Prop :=
  ∃ before after q v requestId r, t = before ++ after ∧ eventsOf i before = [] ∧
    Reach (system ι policy) p₀ w₀ before q v ∧ Reach (system ι policy) q v after p w ∧
    Settled requestId before q ∧ (∀ d ∈ after, identifier? d.2 ≠ some requestId) ∧
    Cluster.record? codec ⟨v.store, w.now⟩ requestId = some r ∧
    Approves r agentId action resourceArn taskId

/-- Whoever marks a request that the gate is for has it approved: of every such run that has begun
and not ended, the request was approved when the run began. -/
def MarkedApproved (rt : Runtime) (codec : Codec) (policy : PolicyServer) (parties : ι → Party)
    (w₀ : Cluster) (t : List (ι × SystemEvent)) (p : ι → Prog SystemCall SystemCall.Reply Unit)
    (w : Cluster) : Prop :=
  ∀ i agent pep args, parties i = .run agent pep args →
    ∀ spec, agent.registry.get args.toolKey = .ok spec →
      Main.Gated agent.agentType.value spec.action → args.PreApproved →
        eventsOf i t ≠ [] → (∀ a, p i ≠ .done a) →
          BegunApproved codec policy (fun j ↦ (parties j).program rt codec) w₀ t p w i
            agent.agentId spec.action args.resourceArn args.taskId

/-- In every run of the system whose callers mark only what is approved, a handler of a gated
request finds its approval in the store. -/
theorem handlers_approved (hf : Faithful policy)
    (h : Reach (system ι policy) (fun i ↦ (parties i).program rt codec) w₀ t p w)
    (hm : MarkedApproved rt codec policy parties w₀ t p w) :
    HandlersApproved codec parties p w := by
  intro i agent pep args hi tool state k hp spec hs hg
  obtain ⟨-, -, -, -, -, -, -, -, -, -, hres, htask⟩ := reach_handled h hi hp
  have hb : eventsOf i t ≠ [] := by
    intro hn
    have hsteps := h.steps i
    rw [hn, hi] at hsteps
    generalize hq : p i = q at hsteps
    cases hsteps
    rw [hp] at hq
    cases hq
  have hu : ∀ a, p i ≠ .done a := by
    intro a ha
    cases hp.symm.trans ha
  obtain ⟨before, after, q, v, requestId, r, -, -, h₁, h₂, hset, hfresh, hr, ha⟩ :=
    hm i agent pep args hi spec hs hg (handled_preApproved hf h hi hp hs hg) hb hu
  have hn : r.status ≠ .pending := by
    rw [ha.approved]
    decide
  rw [hres, htask]
  exact ⟨requestId, r, record?_kept h₁ h₂ hset hfresh hr hn, ha⟩

end

/-! ### An approved deletion -/

/-- The system that has the Redis server of a queue. -/
def clusterOf (x : Server) : Cluster := ⟨x.store, x.now⟩

/-- A method of the queue that a party calls is carried out without an interruption. -/
theorem exists_served {ι : Type} [DecidableEq ι] {policy : PolicyServer}
    {p₀ p : ι → Prog SystemCall SystemCall.Reply Unit} {w₀ : Cluster} {t : List (ι × SystemEvent)}
    {x : Server} (h : Reach (system ι policy) p₀ w₀ t p (clusterOf x)) {i : ι} {α : Type}
    (m : QueueMethod α)
    (hp : p i = ((m ()).embed .queue fun _ reply ↦ reply).bind fun _ ↦ .done ()) :
    ∃ u p', Reach (system ι policy) p₀ w₀ (t ++ u) p' (clusterOf (x.call m).2) ∧
      p' i = .done () ∧ (∀ e ∈ u, e.1 = i) ∧ ∀ j, j ≠ i → p' j = p j := by
  have ha (y : Server) (c : QueueCall) : ∃ reply : (SystemCall.queue c).Reply,
      reply = (y.answer c).1 ∧
        (system ι policy).answer (clusterOf y) i (.queue c) reply (clusterOf (y.answer c).2) := by
    refine ⟨(y.answer c).1, rfl, ?_⟩
    cases c with
    | redis c => exact .inl ⟨rfl, rfl⟩
    | clock => exact ⟨rfl, rfl⟩
    | uuid4 => exact rfl
  exact h.exists_serve Server.answer clusterOf ha (m ()) hp

/-- The request for the deletion of an object. -/
def deletionRequest : Submission :=
  { submission with
    agentId := "agent-infra-001"
    action := "s3:DeleteObject"
    resourceArn := "arn:aws:s3:::bucket/key"
    taskId := "task-001" }

/-- Its approval. -/
def deletionApproval : ApprovalResolution := ⟨firstId, "approve", "user:alice", none⟩

/-- A request for approval, its approval, and the deletion that its caller then marks. -/
def approvedDeletion : Fin 3 → Party
  | 0 => .enqueue "agent-infra-001" "s3:DeleteObject" "arn:aws:s3:::bucket/key" "task-001"
      "nhi.destructive_gate" .high "jti-1" (.obj []) defaultTtlSeconds
  | 1 => .resolve deletionApproval
  | 2 => deletion

/-- A queue without requests, at time zero. -/
private def emptyQueue : Server := { emptyServer with now := 0 }

-- the queue once the request is enqueued, and once it is approved
private theorem emptyQueue_calls : ∃ x y L,
    emptyQueue.call (deletionRequest.enqueue isoCodec) =
        (.ok (deletionRequest.request firstId 0), x) ∧
      (x.call (resolve isoCodec deletionApproval)).2 = y ∧ Represents isoCodec y L ∧
      L.now = 0 ∧ L.lookup firstId =
        some ((deletionRequest.request firstId 0).resolved deletionApproval 0) := by
  have hc := isoCodec_lawful
  have hempty : Represents isoCodec emptyQueue ⟨fun _ ↦ none, [], 0⟩ :=
    ⟨rfl, rfl, fun _ _ ↦ .none, rfl⟩
  have hok : (emptyQueue.call (deletionRequest.enqueue isoCodec)).1 =
      .ok (deletionRequest.request firstId 0) := rfl
  rcases call_enqueue hc hempty deletionRequest (by decide +kernel) (by decide) with
    ⟨-, -, r, w, hform, hcall, -, hrep⟩ | ⟨e, hcall⟩
  · cases (show (deletionRequest.request firstId 0).jsonForm isoCodec = some _ from rfl).symm.trans
      hform
    have hf : Ledger.lookup (IndexedTable.insert ⟨fun _ ↦ none, [], 0⟩ firstId
        (deletionRequest.request firstId 0)) deletionApproval.requestId =
          some (deletionRequest.request firstId 0) :=
      IndexedTable.find_eq_some_iff.mpr ⟨IndexedTable.record_insert_self _ _, by decide⟩
    have hw : w.now = 0 := hrep.now.symm
    obtain ⟨w', hcall', -, hrep'⟩ := call_resolve_ok deletionApproval hc hrep
      (hw ▸ Nat.zero_le _) hf rfl (by decide)
    rw [hw] at hrep'
    exact ⟨w, w', _, hcall, congrArg Prod.snd hcall', hrep', rfl, Ledger.lookup_close _ _ _ _ rfl⟩
  · rw [hcall] at hok
    cases hok

/-- The request is enqueued and approved, and the deletion has not begun. -/
theorem exists_approved (policy : PolicyServer) : ∃ t p w r,
    Reach (system (Fin 3) policy) (fun i ↦ (approvedDeletion i).program asciiRuntime isoCodec)
        emptyCluster t p w ∧
      w.now = 0 ∧ (∃ a, p 0 = .done a) ∧ (∃ a, p 1 = .done a) ∧
      p 2 = deletion.program asciiRuntime isoCodec ∧ eventsOf 2 t = [] ∧
      w.record? isoCodec firstId = some r ∧
      Approves r "agent-infra-001" "s3:DeleteObject" "arn:aws:s3:::bucket/key" "task-001" := by
  obtain ⟨x, y, L, hx, hy, hrep, hnow, hf⟩ := emptyQueue_calls
  have h₀ : Reach (system (Fin 3) policy)
    (fun i ↦ (approvedDeletion i).program asciiRuntime isoCodec) emptyCluster [] _ _ := .start
  obtain ⟨u₁, p₁, h₁, hi₁, hu₁, ho₁⟩ := exists_served (x := emptyQueue) (i := 0) h₀
    (deletionRequest.enqueue isoCodec) rfl
  rw [hx] at h₁
  obtain ⟨u₂, p₂, h₂, hi₂, hu₂, ho₂⟩ := exists_served (i := 1) h₁
    (resolve isoCodec deletionApproval) (ho₁ 1 (by decide))
  rw [hy] at h₂
  obtain ⟨hw, json, hj, hl⟩ := hrep.live hf
  have hdec := ApprovalRequest.validateJson?_dumpJson isoCodec_lawful hw hj
  refine ⟨_, p₂, clusterOf y, _, h₂, hrep.now.symm.trans hnow,
    ⟨(), (ho₂ 0 (by decide)).trans hi₁⟩, ⟨(), hi₂⟩, (ho₂ 2 (by decide)).trans (ho₁ 2 (by decide)),
    ?_, (Cluster.record?_of_live hl).trans hdec,
    ⟨rfl, rfl, rfl, rfl, rfl, "user:alice", rfl, by decide⟩⟩
  refine List.eq_nil_iff_forall_not_mem.mpr fun e he ↦ ?_
  rcases List.mem_append.mp (mem_eventsOf.mp he) with hm | hm
  · cases hu₁ _ hm
  · cases hu₂ _ hm

/-- With the wire repaired, the deletion that is marked once it has been approved reaches its
handler, with the approval in the store. -/
theorem handlers_approved_deletion : ∃ t p w,
    Reach (system (Fin 3) textTimePolicy)
        (fun i ↦ (approvedDeletion i).program asciiRuntime isoCodec) emptyCluster t p w ∧
      nextIsHandler (p 2) = true ∧ HandlersApproved isoCodec approvedDeletion p w := by
  obtain ⟨t, p, w, r, h, hw, h₀, h₁, h₂, ht, hr, ha⟩ := exists_approved textTimePolicy
  have hsettled : Settled firstId t p := by
    intro j hj
    rcases (by decide : ∀ j : Fin 3, j = 0 ∨ j = 1 ∨ j = 2) j with rfl | rfl | rfl
    · exact h₀
    · exact h₁
    · obtain ⟨e, he, -⟩ := hj
      rw [ht] at he
      cases he
  have hfresh : ∀ e ∈ (play textTimePolicy deletion 9).1, identifier? e ≠ some firstId := by
    have hall : (play textTimePolicy deletion 9).1.all
        (fun e ↦ decide (identifier? e ≠ some firstId)) = true := by decide +kernel
    simpa using hall
  have hnext : nextIsHandler (play textTimePolicy deletion 9).2 = true := by decide +kernel
  have hstart : Reach (system (Fin 3) textTimePolicy) p w [] p w := .start
  have hafter := reach_play hstart hw 2 deletion h₂ 9
  have hrun := reach_play h hw 2 deletion h₂ 9
  rw [List.nil_append] at hafter
  generalize play textTimePolicy deletion 9 = played at *
  refine ⟨_, _, w, hrun, ?_, handlers_approved textTimePolicy_faithful hrun ?_⟩
  · rw [Function.update_self]
    exact hnext
  intro i agent pep args hi spec hs hg hm hb hu
  rcases (by decide : ∀ j : Fin 3, j = 0 ∨ j = 1 ∨ j = 2) i with rfl | rfl | rfl
  · cases hi
  · cases hi
  cases hi
  cases hs
  refine ⟨t, _, p, w, firstId, r, rfl, ht, h, hafter, hsettled, fun d hd ↦ ?_, hr, ha⟩
  obtain ⟨e, he, rfl⟩ := List.mem_map.mp hd
  exact hfresh e he

/-- With the wire repaired, a deletion that is marked reaches its handler on a server without any
approval. -/
theorem deletion_unapproved : Faithful textTimePolicy ∧ ∃ t p w,
    Reach (system Unit textTimePolicy) (fun _ ↦ deletion.program asciiRuntime isoCodec)
        emptyCluster t p w ∧
      ¬ HandlersApproved isoCodec (fun _ ↦ deletion) p w := by
  refine ⟨textTimePolicy_faithful, _, _, _, reach_play .start rfl () deletion rfl 9, fun h ↦ ?_⟩
  have hb : nextIsHandler (play textTimePolicy deletion 9).2 = true := by decide +kernel
  obtain ⟨key, state, k, hc⟩ := exists_of_nextIsHandler hb
  obtain ⟨requestId, r, hr, -⟩ := h () _ _ _ rfl key state k hc _ rfl (.inl (by decide))
  cases hr

end NhiSentinel.Agents
