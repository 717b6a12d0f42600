import NhiSentinel.Approval.Queue
import NhiSentinel.Pep.Mediation

/-!
# From the enforcement point to the queue

The record that the enforcement point writes for an approval, as the approval queue finds
it. It is written as a Python dictionary, so the queue, which reads JSON, refuses it for
as long as it lives.
-/

namespace NhiSentinel.Approval
open NhiSentinel.Base NhiSentinel.Pep

/-- The server holds a string under the key of a request. -/
def Holds (w : Server) (requestId text : String) : Prop :=
  ∃ expires, w.store.live w.now (key requestId) = some ⟨.text text, expires⟩

/-- What is promised of a handed-over request: the queue reads it as a pending request with the
fields of the action, lists it, and resolves it for anyone but the agent. -/
structure HandedOver (codec : Codec) (w : Server) (requestId : String) (request : ActionRequest)
    (decision : PolicyDecision) : Prop where
  readable : ∃ r, (w.call (get codec requestId)).1 = .ok r ∧ r.status = .pending ∧
    r.agentId = request.agentId ∧ r.action = request.action ∧
    r.resourceArn = request.resourceArn ∧ r.taskId = request.taskId ∧
    r.policyRef = decision.policyRef
  listed : ∃ r rs, (w.call (get codec requestId)).1 = .ok r ∧
    (w.call (listPending codec)).1 = .ok rs ∧ r ∈ rs
  resolvable : ∀ resolution : ApprovalResolution, resolution.requestId = requestId →
    resolution.approverIdentity ≠ request.agentId →
      ∃ r, (w.call (resolve codec resolution)).1 = .ok r ∧
        (r.status = .approved ∨ r.status = .denied)

/-! ### The record -/

private theorem strDict_cons (rt : Runtime) {k : String} (hk : '\'' ∉ k.toList) (v : String)
    (items : List (String × String)) :
    ∃ cs, Python.strDict rt ((k, v) :: items) = String.ofList ('\x7b' :: '\'' :: cs) := by
  have hr : ∃ cs, (Python.reprStr rt k).toList = '\'' :: cs := by
    rw [Python.reprStr, if_neg fun h ↦ hk h.1]
    exact ⟨_, by simp [Char.toString]; rfl⟩
  obtain ⟨cs, hr⟩ := hr
  have hi : ∃ ds, (", ".intercalate (((k, v) :: items).map fun kv ↦
      Python.reprStr rt kv.1 ++ ": " ++ Python.reprStr rt kv.2)).toList = '\'' :: ds := by
    cases items with
    | nil =>
      rw [List.map_singleton, String.intercalate_singleton]
      exact ⟨_, by simp [hr]; rfl⟩
    | cons kv items =>
      rw [List.map_cons, List.map_cons, String.intercalate_cons_cons]
      exact ⟨_, by simp [hr]; rfl⟩
  obtain ⟨ds, hi⟩ := hi
  refine ⟨ds ++ ['\x7d'], ?_⟩
  rw [Python.strDict, ← String.toList_inj, String.toList_append, String.toList_append, hi]
  simp

/-- The record is no JSON: it begins with a brace and a single quote. -/
theorem parse_approvalData (rt : Runtime) (request : ActionRequest) (decision : PolicyDecision)
    (requestId requestedAt : String) :
    Json.parse (Python.strDict rt (approvalData request decision requestId requestedAt)) =
      none := by
  obtain ⟨cs, hc⟩ := strDict_cons rt (k := "request_id") (by decide) requestId _
  rw [approvalData, hc]
  exact Json.parse_brace (by decide) (by decide) (by decide) cs

/-! ### What the queue makes of a record that is no JSON -/

section
variable {codec : Codec} {w : Server} {requestId text : String}

/-- A record is fetched as it is stored. -/
theorem call_fetch (h : Holds w requestId text) (hn : text ≠ "") :
    w.call (fetch requestId) = (.ok text, w) := by
  obtain ⟨expires, hl⟩ := h
  have hg : Redis.exec w.now (.get (key requestId)) w.store = (.ok (some text), w.store) := by
    rw [Redis.exec, Redis.get, hl]
  rw [fetch, Server.call_bind, Server.call_redis, hg]
  simp only [Except.mapError, hn, if_false]
  rfl

/-- A record that cannot be decoded stops every reader. -/
theorem call_get_of_undecodable (h : Holds w requestId text) (hn : text ≠ "")
    (hd : ApprovalRequest.validateJson? codec text = none) :
    w.call (get codec requestId) = (.error (.other "ValidationError"), w) := by
  rw [get, Server.call_bind, call_fetch h hn]
  simp only [decode, hd]
  rfl

/-- A record that cannot be decoded cannot be resolved. -/
theorem call_resolve_of_undecodable {resolution : ApprovalResolution}
    (h : Holds w resolution.requestId text) (hn : text ≠ "")
    (hd : ApprovalRequest.validateJson? codec text = none) :
    w.call (resolve codec resolution) = (.error (.other "ValidationError"), w) := by
  rw [resolve, Server.call_bind, call_fetch h hn]
  simp only [Server.call_bind, decode, hd]
  rfl

/-- Reading a request changes nothing. -/
theorem call_get_state (rid : String) : (w.call (get codec rid)).2 = w := by
  have hf : (w.call (fetch rid)).2 = w := by
    rw [fetch, Server.call_bind, Server.call_redis]
    cases (Redis.exec w.now (.get (key rid)) w.store).1 with
    | error r => rfl
    | ok raw =>
      cases raw with
      | none => rfl
      | some json =>
        simp only [Except.mapError]
        split <;> rfl
  rw [get, Server.call_bind]
  revert hf
  rcases w.call (fetch rid) with ⟨_ | raw, w'⟩
  · exact id
  · rintro rfl
    simp only [decode]
    split <;> rfl

/-- A string stays where it is when something is taken from the pending set. -/
theorem Holds.srem (h : Holds w requestId text) (rid : String) :
    Holds (w.call (redis (.srem pendingSet rid))).2 requestId text := by
  obtain ⟨expires, hl⟩ := h
  refine ⟨expires, ?_⟩
  rw [Server.call_redis]
  by_cases hk : key requestId = pendingSet
  · rw [hk] at hl ⊢
    simp only [Redis.exec, Redis.srem, Redis.members, hl]
  · rw [← hl]
    exact Redis.live_congr (Redis.srem_of_ne hk)

/-- A listing that comes to a record that cannot be decoded fails. -/
theorem call_listFrom_of_undecodable (h : Holds w requestId text) (hn : text ≠ "")
    (hd : ApprovalRequest.validateJson? codec text = none) {rids : List String}
    (hm : requestId ∈ rids) : ∃ e, (w.call (listFrom codec rids)).1 = .error e := by
  induction rids generalizing w with
  | nil => cases hm
  | cons rid rids ih =>
    -- what precedes the rest of the loop fails or leaves the record in place
    have rest {w' : Server} (hw : Holds w' requestId text) (hr : rid ≠ requestId)
        (found : Option ApprovalRequest) : ∃ e, (w'.call (do
          let rest ← listFrom codec rids
          pure (found.toList ++ rest))).1 = .error e := by
      obtain ⟨e, he⟩ := ih hw ((List.mem_cons.mp hm).resolve_left (Ne.symm hr))
      refine ⟨e, ?_⟩
      rw [Server.call_bind, ← he]
      revert he
      rcases w'.call (listFrom codec rids) with ⟨_ | _, _⟩ <;> rintro ⟨⟩
      rfl
    rw [listFrom, Server.call_bind, Server.call_handle, Server.call_bind]
    by_cases hr : rid = requestId
    · rw [hr, call_get_of_undecodable h hn hd]
      exact ⟨_, rfl⟩
    have hs : (w.call (get codec rid)).2 = w := call_get_state rid
    revert hs
    rcases w.call (get codec rid) with ⟨e | r, w'⟩ <;> rintro rfl
    · cases e with
      | notFound message =>
        have hw := h.srem rid
        dsimp only
        rw [Server.call_bind w']
        revert hw
        rcases w'.call (redis (.srem pendingSet rid)) with ⟨e | n, w''⟩ <;> intro hw
        · exact ⟨_, rfl⟩
        · exact rest hw hr none
      | _ => exact ⟨_, rfl⟩
    · exact rest h hr (some r)

/-- A successful listing has no record in it that cannot be decoded. -/
theorem not_mem_of_call_listPending (h : Holds w requestId text) (hn : text ≠ "")
    (hd : ApprovalRequest.validateJson? codec text = none) {rs : List ApprovalRequest}
    (hl : (w.call (listPending codec)).1 = .ok rs) {rids : List String}
    (hm : Redis.members w.store w.now pendingSet = .ok rids) : requestId ∉ rids := by
  intro hr
  rw [listPending, Server.call_bind, Server.call_redis, Redis.exec, hm] at hl
  obtain ⟨e, he⟩ := call_listFrom_of_undecodable h hn hd hr
  cases hl.symm.trans he

/-- What the queue can do with a record that it cannot decode. -/
structure Unusable (codec : Codec) (w : Server) (requestId : String) : Prop where
  unreadable : (w.call (get codec requestId)).1 = .error (.other "ValidationError")
  unresolvable : ∀ resolution : ApprovalResolution, resolution.requestId = requestId →
    (w.call (resolve codec resolution)).1 = .error (.other "ValidationError")
  unlisted : ∀ rs rids, (w.call (listPending codec)).1 = .ok rs →
    Redis.members w.store w.now pendingSet = .ok rids → requestId ∉ rids

private theorem unusable_of_undecodable (h : Holds w requestId text) (hn : text ≠ "")
    (hd : ApprovalRequest.validateJson? codec text = none) : Unusable codec w requestId where
  unreadable := by rw [call_get_of_undecodable h hn hd]
  unresolvable := by
    rintro resolution rfl
    rw [call_resolve_of_undecodable h hn hd]
  unlisted _ _ hl hm := not_mem_of_call_listPending h hn hd hl hm

/-- What is promised of a handed-over request fails in each part. -/
theorem Unusable.not_handedOver (h : Unusable codec w requestId) (request : ActionRequest)
    (decision : PolicyDecision) : ¬ HandedOver codec w requestId request decision := by
  rintro ⟨⟨r, hr, -⟩, -, -⟩
  cases hr.symm.trans h.unreadable

/-- A written string is held until its time to live is over. -/
theorem holds_of_setex {st : Redis.Store} {now now' : Nat} {ttl : Int} {ids : Nat → String}
    (h : 0 < ttl) (hn : now' < now + ttl.toNat * 1000000) :
    Holds ⟨(Redis.setex st now (key requestId) ttl text).2, now', ids⟩ requestId text :=
  ⟨_, Redis.live_of_setex h hn⟩

end

/-! ### What the enforcement point hands over -/

/-- The commands to Redis among the calls. -/
def commands (t : List Event) : List Redis.Command :=
  t.filterMap fun
    | ⟨.redis c, _⟩ => some c
    | _ => none

/-- The record of the enforcement point is held by the server, and of no use to the queue. -/
theorem unusable_approvalData {rt : Runtime} {codec : Codec} {w : Server} {requestId : String}
    {request : ActionRequest} {decision : PolicyDecision} {requestedAt : String}
    (h : Holds w requestId
      (Python.strDict rt (approvalData request decision requestId requestedAt))) :
    Unusable codec w requestId := by
  have hp := parse_approvalData rt request decision requestId requestedAt
  refine unusable_of_undecodable h ?_ ?_
  · intro hn
    rw [hn] at hp
    obtain ⟨cs, hc⟩ := strDict_cons rt (k := "request_id") (by decide) requestId
      (approvalData request decision requestId requestedAt).tail
    rw [approvalData] at hn
    cases String.ofList_injective (hc.symm.trans hn)
  · rw [ApprovalRequest.validateJson?, hp]
    rfl

/-- Every queueing that returns an identifier has written one record under it and nothing else;
for as long as the record is there, the queue cannot read it, resolve it or list it. -/
theorem queueApproval_unusable {rt : Runtime} {decision : PolicyDecision} {s s' : State}
    {t : List Event} {requestId : String}
    (h : Py.Run (queueApproval rt decision) s t (.ok requestId) s') :
    ∃ ttl text, commands t = [.setex (key requestId) ttl text] ∧
      ∀ codec w, Holds w requestId text →
        Unusable codec w requestId ∧ ¬ HandedOver codec w requestId s.request decision := by
  obtain ⟨-, hq⟩ := queueApproval_run h
  generalize ho : (Except.ok requestId : Except PyExn String) = out at hq
  cases hq with
  | clientFailed | ttlFailed => cases ho
  | written id now ttl reply =>
    cases reply with
    | error cls => cases ho
    | ok u =>
      cases ho
      refine ⟨ttl, _, rfl, fun codec w hw ↦ ?_⟩
      have hu : Unusable codec w _ := unusable_approvalData hw
      exact ⟨hu, hu.not_handedOver _ _⟩

/-! ### A run -/

/-- A decision that asks for approval. -/
def approvalDecision : PolicyDecision where
  effect := .requireApproval
  reason := "Action requires human approval"
  policyRef := "nhi.destructive_gate"
  policyVersion := "2.0.0"
  evaluatedAt := "2024-02-29T00:00:00+00:00"
  conditionsEvaluated := []

/-- The identifier that the services give out. -/
def firstId : String := "00000000-0000-4000-8000-000000000000"

/-- A queueing that returns. -/
theorem queueApproval_unusable_first :
    ∃ ttl text, commands (Py.exec (services .requestError 0)
        (queueApproval asciiRuntime approvalDecision) start).1 =
          [.setex (key firstId) ttl text] ∧
      ∀ codec w, Holds w firstId text →
        Unusable codec w firstId ∧ ¬ HandedOver codec w firstId getObject approvalDecision :=
  queueApproval_unusable (Py.run_exec (services .requestError 0)
    (queueApproval asciiRuntime approvalDecision) start)

/-- A codec that keeps identifiers and dictionaries and writes dates as numbers. -/
def plainCodec : Codec where
  readUuid := validateStr
  readDate
    | .num n => if n.scale = 0 then some n.mantissa.toNat else none
    | _ => none
  writeDate n := .int n
  jsonDict
    | .obj kvs => some kvs
    | _ => none

/-- The server a second after the record was written to an empty store. -/
def handedServer : Server where
  store := (Redis.setex (fun _ ↦ none) 0 (key firstId) 14400 (Python.strDict asciiRuntime
    (approvalData getObject approvalDecision firstId (Python.isoformat 0)))).2
  now := 1000000
  ids := fun n ↦ toString n

/-- The record is there and the request is not handed over. -/
theorem queued_record_refused :
    Holds handedServer firstId (Python.strDict asciiRuntime
      (approvalData getObject approvalDecision firstId (Python.isoformat 0))) ∧
      ¬ HandedOver plainCodec handedServer firstId getObject approvalDecision :=
  have h := holds_of_setex (by decide) (by decide)
  ⟨h, (unusable_approvalData h).not_handedOver _ _⟩

end NhiSentinel.Approval
