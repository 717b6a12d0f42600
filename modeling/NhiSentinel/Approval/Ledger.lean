import NhiSentinel.Approval.Handoff
import NhiSentinel.Approval.Record
import NhiSentinel.Base.IndexedTable

/-!
# The queue as a table of requests

What the approval queue keeps in Redis is a table of expiring requests with an index of the
pending ones. Every method of the queue refines an operation on that table.
-/

namespace NhiSentinel.Approval
open NhiSentinel.Base

/-- What `enqueue` is given. -/
structure Submission where
  agentId : String
  action : String
  resourceArn : String
  taskId : String
  policyRef : String
  riskLevel : RiskLevel
  tokenJti : String
  context : Value
  ttlSeconds : Int
  dictionary : context.isDict = true

namespace Submission

/-- The call of `enqueue`. -/
def enqueue (codec : Codec) (s : Submission) : QueueMethod ApprovalRequest :=
  Approval.enqueue codec s.agentId s.action s.resourceArn s.taskId s.policyRef s.riskLevel
    s.tokenJti s.context s.ttlSeconds

/-- The request that is made of it. -/
def request (s : Submission) (requestId : String) (now : Nat) : ApprovalRequest where
  requestId := requestId
  agentId := s.agentId
  action := s.action
  resourceArn := s.resourceArn
  taskId := s.taskId
  policyRef := s.policyRef
  riskLevel := s.riskLevel
  requestedAt := now
  expiresAt := (now + s.ttlSeconds * 1000000).toNat
  requestingTokenJti := s.tokenJti
  context := s.context
  status := .pending
  approverIdentity := none
  resolvedAt := none

end Submission

namespace ApprovalRequest

/-- The request as it is after a resolution. -/
def resolved (r : ApprovalRequest) (resolution : ApprovalResolution) (now : Nat) :
    ApprovalRequest :=
  { r with
    status := if resolution.action = "approve" then .approved else .denied
    approverIdentity := some resolution.approverIdentity
    resolvedAt := some now }

/-- How long the record of a request is kept: as long as the request is open for approval, and
an hour after its resolution. -/
def keptUntil (r : ApprovalRequest) : Nat :=
  match r.resolvedAt with
  | none => r.expiresAt
  | some n => n + 3600 * 1000000

/-- A request that waits for its resolution. -/
def IsPending (r : ApprovalRequest) : Prop := r.status = .pending

/-- A resolution approves exactly with the action `approve`. -/
theorem approved_resolved_iff (r : ApprovalRequest) (resolution : ApprovalResolution)
    (now : Nat) :
    (r.resolved resolution now).status = .approved ↔ resolution.action = "approve" := by
  rw [resolved]
  by_cases h : resolution.action = "approve" <;> simp [h]

/-- A resolution denies with any other action. -/
theorem denied_resolved_iff (r : ApprovalRequest) (resolution : ApprovalResolution)
    (now : Nat) : (r.resolved resolution now).status = .denied ↔ resolution.action ≠ "approve" := by
  rw [resolved]
  by_cases h : resolution.action = "approve" <;> simp [h]

/-- A request that is resolved is pending no more. -/
theorem not_isPending_resolved (r : ApprovalRequest) (resolution : ApprovalResolution)
    (now : Nat) : ¬ (r.resolved resolution now).IsPending := by
  rw [IsPending, resolved]
  split <;> exact ApprovalStatus.noConfusion

/-- A request that is resolved stays well formed. -/
theorem WellFormed.resolved {r : ApprovalRequest} (h : r.WellFormed)
    (resolution : ApprovalResolution) {now : Nat} (hn : now ≤ Python.datetimeMax) :
    (r.resolved resolution now).WellFormed where
  requestId := h.requestId
  requestedAt := h.requestedAt
  expiresAt := h.expiresAt
  dict := h.dict
  json := h.json
  resolvedAt := by
    rintro n ⟨⟩
    exact hn

/-- A request that could be written can be written when it is resolved. -/
theorem exists_dumpJson_resolved {codec : Codec} (hc : codec.Lawful) {r : ApprovalRequest}
    {json : String} (h : r.dumpJson codec = some json) (resolution : ApprovalResolution)
    (now : Nat) : ∃ json', (r.resolved resolution now).dumpJson codec = some json' := by
  apply Option.isSome_iff_exists.mp
  rw [isSome_dumpJson hc]
  exact (isSome_dumpJson hc r).symm.trans (Option.isSome_iff_exists.mpr ⟨json, h⟩)

end ApprovalRequest

/-- What is stored of a request: its JSON form, with its text. -/
structure StoredAs (codec : Codec) (r r' : ApprovalRequest) (json : String) : Prop where
  form : r.jsonForm codec = some r'
  wellFormed : r'.WellFormed
  text : r'.dumpJson codec = some json

section
variable {codec : Codec} {r r' : ApprovalRequest} {json : String}

/-- Under its identifier. -/
theorem StoredAs.requestId (h : StoredAs codec r r' json) : r'.requestId = r.requestId := by
  obtain ⟨kvs, -, rfl⟩ := ApprovalRequest.jsonForm_eq_some_iff.mp h.form
  rfl

/-- With its date. -/
theorem StoredAs.expiresAt (h : StoredAs codec r r' json) : r'.expiresAt = r.expiresAt := by
  obtain ⟨kvs, -, rfl⟩ := ApprovalRequest.jsonForm_eq_some_iff.mp h.form
  rfl

/-- A request whose context is JSON is stored as it is. -/
theorem Submission.eq_of_jsonForm (hc : codec.Lawful) {s : Submission} {requestId : String}
    {now : Nat} (hf : (s.request requestId now).jsonForm codec = some r)
    (hj : s.context.isJson = true) : r = s.request requestId now :=
  Option.some.inj (hf.symm.trans (ApprovalRequest.jsonForm_of_json hc s.dictionary hj))

/-- A request made of a submission is stored if it can be written. -/
theorem Submission.exists_storedAs (hc : codec.Lawful) (s : Submission) {requestId : String}
    {now : Nat} (hid : canonicalUuid requestId = true) (hn : now ≤ Python.datetimeMax)
    (hx : now + s.ttlSeconds * 1000000 ≤ Python.datetimeMax)
    (hj : (s.request requestId now).dumpJson codec = some json) :
    ∃ r', StoredAs codec (s.request requestId now) r' json := by
  obtain ⟨r', hf, -⟩ := Option.bind_eq_some_iff.mp hj
  obtain ⟨kvs, hk, he⟩ := ApprovalRequest.jsonForm_eq_some_iff.mp hf
  obtain ⟨hdict, hjson⟩ := hc.jsonDict.json _ _ hk
  refine ⟨r', hf, ?_, (ApprovalRequest.dumpJson_of_jsonForm hc hf).symm.trans hj⟩
  rw [he]
  refine ⟨hid, hn, ?_, hdict, hjson, nofun⟩
  show (now + s.ttlSeconds * 1000000).toNat ≤ Python.datetimeMax
  omega

end

/-! ### The table behind the keys of the server -/

/-- The requests under their identifiers, those that wait for their resolution indexed. -/
abbrev Ledger := IndexedTable String ApprovalRequest

/-- The request of an identifier, unless its record has expired. -/
abbrev Ledger.lookup (L : Ledger) (requestId : String) : Option ApprovalRequest :=
  L.find ApprovalRequest.keptUntil requestId

/-- A request that is resolved now is there. -/
theorem Ledger.lookup_close (L : Ledger) (id : String) (r : ApprovalRequest)
    (resolution : ApprovalResolution) {now : Nat} (hn : L.now = now) :
    Ledger.lookup (L.close id (r.resolved resolution now)) id =
      some (r.resolved resolution now) := by
  refine IndexedTable.find_eq_some_iff.mpr ⟨L.record_close_self id _, ?_⟩
  show L.now < now + 3600 * 1000000
  omega

/-- What a key holds for a request. -/
def Keeps (codec : Codec) (e : Redis.Entry) (r : ApprovalRequest) : Prop :=
  r.WellFormed ∧ ∃ json, r.dumpJson codec = some json ∧ e = ⟨.text json, some r.keptUntil⟩

/-- The name that the key of the pending set would be the key of. -/
def pendingName : String := "pending"

/-- The server holds the table: one key for each request, and the index as the pending set. -/
structure Represents (codec : Codec) (w : Server) (L : Ledger) : Prop where
  now : L.now = w.now
  absent : L.record pendingName = none
  record : ∀ id, id ≠ pendingName →
    Option.Rel (Keeps codec) (w.store (key id)) (L.record id)
  index : w.store pendingSet = if L.index = [] then none else some ⟨.set L.index, none⟩

/-- It is the name of no request. -/
theorem ne_pendingName {id : String} (h : canonicalUuid id = true) : id ≠ pendingName := by
  rintro rfl
  exact absurd h (by decide)

/-- Different requests have different keys. -/
theorem key_injective : Function.Injective key := by
  intro a b h
  exact (String.append_right_inj "approval:").mp h

/-- The key of a request is not that of the pending set. -/
theorem key_ne_pendingSet {id : String} (h : id ≠ pendingName) : key id ≠ pendingSet := by
  intro he
  exact h (key_injective (he.trans (by decide : pendingSet = key pendingName)))

section
variable {codec : Codec} {w : Server} {L : Ledger} {id : String} {r : ApprovalRequest}

/-- No request has the name of the pending set. -/
theorem Represents.ne_pendingName (h : Represents codec w L) (hr : L.record id = some r) :
    id ≠ pendingName := by
  rintro rfl
  cases h.absent.symm.trans hr

/-- A request that has not expired is held by the server. -/
theorem Represents.live (h : Represents codec w L) (hf : L.lookup id = some r) :
    r.WellFormed ∧ ∃ json, r.dumpJson codec = some json ∧
      w.store.live w.now (key id) = some ⟨.text json, some r.keptUntil⟩ := by
  obtain ⟨hr, hn⟩ := IndexedTable.find_eq_some_iff.mp hf
  have hk := h.record id (h.ne_pendingName hr)
  rw [hr] at hk
  generalize he : w.store (key id) = e at hk
  cases hk with
  | some hk =>
    obtain ⟨hw, json, hj, rfl⟩ := hk
    refine ⟨hw, json, hj, Redis.live_of_expires he ?_⟩
    rintro x ⟨⟩
    rwa [← h.now]

/-- Nothing is held for a request that is not there or has expired. -/
theorem Represents.live_eq_none (h : Represents codec w L) (hf : L.lookup id = none)
    (hne : id ≠ pendingName) : w.store.live w.now (key id) = none := by
  have hk := h.record id hne
  rw [IndexedTable.find_eq_none_iff] at hf
  rw [Redis.Store.live, Option.filter_eq_none_iff]
  intro e he hl
  rw [he] at hk
  generalize hr : L.record id = o at hk
  cases hk with
  | some hk =>
    obtain ⟨-, json, -, rfl⟩ := hk
    have hx := hf _ hr
    rw [Option.all_some, decide_eq_true_eq] at hl
    rw [h.now] at hx
    omega

/-- The members of the pending set are the index. -/
theorem Represents.members (h : Represents codec w L) :
    Redis.members w.store w.now pendingSet = .ok L.index := by
  rw [Redis.members, Redis.Store.live, h.index]
  by_cases hi : L.index = []
  · rw [if_pos hi, hi]
    rfl
  · rw [if_neg hi]
    rfl

/-! ### Commands -/

/-- A record is written. -/
theorem Represents.setex (h : Represents codec w L) (hne : id ≠ pendingName)
    (hw : r.WellFormed) {json : String} (hj : r.dumpJson codec = some json) (seconds : Int)
    (hs : 0 < seconds) (hk : r.keptUntil = w.now + seconds.toNat * 1000000) :
    Represents codec
      { w with store := (Redis.setex w.store w.now (key id) seconds json).2 }
      { L with record := Function.update L.record id (some r) } where
  now := h.now
  absent := (Function.update_of_ne (Ne.symm hne) ..).trans h.absent
  record id' hne' := by
    rw [Redis.setex, if_pos hs]
    by_cases he : id' = id
    · subst he
      simp only [Redis.Store.put_self, Function.update_self]
      exact .some ⟨hw, json, hj, by rw [hk]⟩
    · simp only [Function.update_of_ne he]
      rw [Redis.Store.put_of_ne _ _ fun hk ↦ he (key_injective hk)]
      exact h.record id' hne'
  index := (Redis.setex_of_ne (Ne.symm (key_ne_pendingSet hne))).trans h.index

/-- The table behind a server whose pending set alone has changed. -/
theorem Represents.of_index (h : Represents codec w L) {st : Redis.Store} {index : List String}
    (hs : ∀ k, k ≠ pendingSet → st k = w.store k)
    (hi : st pendingSet = if index = [] then none else some ⟨.set index, none⟩) :
    Represents codec { w with store := st } { L with index := index } where
  now := h.now
  absent := h.absent
  record id' hne := by
    have hr := h.record id' hne
    rwa [← hs _ (key_ne_pendingSet hne)] at hr
  index := hi

private theorem Represents.expires (h : Represents codec w L) :
    (w.store.live w.now pendingSet).bind (·.expires) = none := by
  rw [Redis.Store.live, h.index]
  split <;> rfl

/-- An identifier is added to the pending set. -/
theorem Represents.sadd (h : Represents codec w L) (id : String) :
    ∃ n w', w.call (redis (.sadd pendingSet id)) = (.ok n, w') ∧ w'.ids = w.ids ∧
      Represents codec w'
        { L with index := if id ∈ L.index then L.index else L.index ++ [id] } := by
  rw [Server.call_redis, Redis.exec, Redis.sadd, h.members, h.expires]
  by_cases hm : id ∈ L.index
  · simp only [hm, if_true]
    exact ⟨_, _, rfl, rfl, h⟩
  · simp only [hm, if_false]
    refine ⟨_, _, rfl, rfl, h.of_index (fun k hk ↦ Redis.Store.put_of_ne _ _ hk) ?_⟩
    rw [Redis.Store.put_self, if_neg (List.append_ne_nil_of_right_ne_nil _ (List.cons_ne_nil _ _))]

/-- An identifier is taken from the pending set. -/
theorem Represents.srem (h : Represents codec w L) (id : String) :
    ∃ n w', w.call (redis (.srem pendingSet id)) = (.ok n, w') ∧ w'.ids = w.ids ∧
      Represents codec w' { L with index := L.index.filter (· ≠ id) } := by
  rw [Server.call_redis, Redis.exec, Redis.srem, h.members, h.expires]
  by_cases hm : id ∈ L.index
  · simp only [hm, if_true]
    refine ⟨_, _, rfl, rfl, h.of_index (fun k hk ↦ Redis.Store.put_of_ne _ _ hk) ?_⟩
    rw [Redis.Store.put_self]
  · simp only [hm, if_false]
    have hf : L.index.filter (· ≠ id) = L.index := by
      rw [List.filter_eq_self]
      intro k hk
      exact decide_eq_true fun he ↦ hm (he ▸ hk)
    rw [hf]
    exact ⟨_, _, rfl, rfl, h⟩

end
end NhiSentinel.Approval
