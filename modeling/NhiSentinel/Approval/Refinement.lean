import NhiSentinel.Approval.Ledger

/-!
# The methods on the table

What each method of the queue answers on a server that holds the table of requests, and
the table that the server holds afterwards.
-/

namespace NhiSentinel.Approval
open NhiSentinel.Base

section
variable {codec : Codec} {w : Server} {L : Ledger} {id : String} {r : ApprovalRequest}

/-- The server after it has given out an identifier. -/
def Server.issued (w : Server) : Server := { w with ids := fun n ↦ w.ids (n + 1) }

/-! ### Reading -/

/-- A key without a live value is reported as not found. -/
theorem call_fetch_of_absent (h : w.store.live w.now (key id) = none) :
    ∃ message, w.call (fetch id) = (.error (.notFound message), w) := by
  have hg : Redis.exec w.now (.get (key id)) w.store = (.ok none, w.store) := by
    rw [Redis.exec, Redis.get, h]
  rw [fetch, Server.call_bind, Server.call_redis, hg]
  exact ⟨_, rfl⟩

private theorem call_fetch_pendingName (h : Represents codec w L) :
    ∃ e, w.call (fetch pendingName) = (.error e, w) := by
  have hk : key pendingName = pendingSet := by decide
  by_cases hi : L.index = []
  · have hl : w.store.live w.now (key pendingName) = none := by
      rw [hk, Redis.Store.live, h.index, if_pos hi]
      rfl
    obtain ⟨message, hf⟩ := call_fetch_of_absent hl
    exact ⟨_, hf⟩
  · have hl : w.store.live w.now pendingSet = some ⟨.set L.index, none⟩ := by
      rw [Redis.Store.live, h.index, if_neg hi]
      rfl
    have hg : Redis.exec w.now (.get pendingSet) w.store = (.error .wrongType, w.store) := by
      rw [Redis.exec, Redis.get, hl]
    rw [fetch, hk, Server.call_bind, Server.call_redis, hg]
    exact ⟨_, rfl⟩

/-- A request that is not in the table is not fetched. -/
theorem call_fetch_of_lookup_eq_none (h : Represents codec w L) (hf : L.lookup id = none) :
    ∃ e, w.call (fetch id) = (.error e, w) := by
  by_cases hne : id = pendingName
  · rw [hne]
    exact call_fetch_pendingName h
  · obtain ⟨message, hm⟩ := call_fetch_of_absent (h.live_eq_none hf hne)
    exact ⟨_, hm⟩

/-- A request in the table is fetched and decoded as it is there. -/
theorem call_fetch_of_lookup (hc : codec.Lawful) (h : Represents codec w L)
    (hf : L.lookup id = some r) : ∃ json, w.call (fetch id) = (.ok json, w) ∧
      w.call (decode codec json) = (.ok r, w) := by
  obtain ⟨hw, json, hj, hl⟩ := h.live hf
  have hv := ApprovalRequest.validateJson?_dumpJson hc hw hj
  refine ⟨json, call_fetch ⟨_, hl⟩ (ApprovalRequest.ne_empty_of_validateJson? hv), ?_⟩
  simp only [decode, hv]
  rfl

/-- `get` answers the request in the table. -/
theorem call_get_of_lookup (hc : codec.Lawful) (h : Represents codec w L)
    (hf : L.lookup id = some r) : w.call (get codec id) = (.ok r, w) := by
  obtain ⟨json, hj, hd⟩ := call_fetch_of_lookup hc h hf
  rw [get, Server.call_bind, hj]
  exact hd

/-- `get` raises for a request that is not in the table. -/
theorem call_get_of_lookup_eq_none (h : Represents codec w L) (hf : L.lookup id = none)
    (hne : id ≠ pendingName) :
    ∃ message, w.call (get codec id) = (.error (.notFound message), w) := by
  obtain ⟨message, hm⟩ := call_fetch_of_absent (h.live_eq_none hf hne)
  rw [get, Server.call_bind, hm]
  exact ⟨_, rfl⟩

/-! ### Writing -/

private theorem call_encode {json : String} (h : r.dumpJson codec = some json) :
    w.call (encode codec r) = (.ok json, w) := by
  simp only [encode, h]
  rfl

private theorem call_setex {seconds : Int} {json : String} (hs : 0 < seconds) :
    w.call (redis (.setex (key id) seconds json)) =
      (.ok (), { w with store := (Redis.setex w.store w.now (key id) seconds json).2 }) := by
  have he : (Redis.setex w.store w.now (key id) seconds json).1 = .ok () := by
    rw [Redis.setex, if_pos hs]
  rw [Server.call_redis, Redis.exec, he]
  rfl

/-- `enqueue` returns a new request and stores its JSON form, kept for its time to live and
indexed, or it raises and leaves the store as it was. -/
theorem call_enqueue (hc : codec.Lawful) (h : Represents codec w L) (s : Submission)
    (hid : canonicalUuid (w.ids 0) = true) (hn : w.now ≤ Python.datetimeMax) :
    (0 < s.ttlSeconds ∧ w.now + s.ttlSeconds * 1000000 ≤ Python.datetimeMax ∧
      ∃ r w', (s.request (w.ids 0) w.now).jsonForm codec = some r ∧
        w.call (s.enqueue codec) = (.ok (s.request (w.ids 0) w.now), w') ∧
        w'.ids = w.issued.ids ∧ Represents codec w' (L.insert (w.ids 0) r)) ∨
    ∃ e, w.call (s.enqueue codec) = (.error e, w.issued) := by
  have hclock : w.call (ask .clock) = (.ok w.now, w) := rfl
  have huuid : w.call (ask .uuid4) = (.ok (w.ids 0), w.issued) := rfl
  have hissued : Represents codec w.issued L := ⟨h.now, h.absent, h.record, h.index⟩
  rw [Submission.enqueue, enqueue, Server.call_bind_ok hclock, Server.call_bind_ok huuid]
  by_cases hx : w.now + s.ttlSeconds * 1000000 < Python.datetimeMin ∨
      Python.datetimeMax < w.now + s.ttlSeconds * 1000000
  · have hd : w.issued.call (date (w.now + s.ttlSeconds * 1000000)) =
        (.error (.other "OverflowError"), w.issued) := by
      rw [date, if_pos hx]
      rfl
    exact .inr ⟨_, Server.call_bind_error hd _⟩
  have hd : w.issued.call (date (w.now + s.ttlSeconds * 1000000)) =
      (.ok (w.now + s.ttlSeconds * 1000000).toNat, w.issued) := by
    rw [date, if_neg hx]
    rfl
  rw [Server.call_bind_ok hd]
  cases hj : (s.request (w.ids 0) w.now).dumpJson codec with
  | none =>
    have he : w.issued.call (encode codec (s.request (w.ids 0) w.now)) =
        (.error (.other "PydanticSerializationError"), w.issued) := by
      simp only [encode, hj]
      rfl
    exact .inr ⟨_, Server.call_bind_error he _⟩
  | some json =>
    have he := call_encode (w := w.issued) hj
    by_cases hs : 0 < s.ttlSeconds
    · have hmax : w.now + s.ttlSeconds * 1000000 ≤ Python.datetimeMax := by omega
      obtain ⟨r, hst⟩ := s.exists_storedAs hc hid hn hmax hj
      have hkept : r.keptUntil = w.now + s.ttlSeconds.toNat * 1000000 := by
        obtain ⟨kvs, -, rfl⟩ := ApprovalRequest.jsonForm_eq_some_iff.mp hst.form
        show (w.now + s.ttlSeconds * 1000000).toNat = _
        omega
      have hr := hissued.setex (ne_pendingName hid) hst.wellFormed hst.text _ hs hkept
      obtain ⟨n, w', hadd, hids, hr'⟩ := hr.sadd (w.ids 0)
      refine .inl ⟨hs, hmax, r, w', hst.form, ?_, hids, hr'⟩
      exact (Server.call_bind_ok he _).trans ((Server.call_bind_ok (call_setex hs) _).trans
        (Server.call_bind_ok hadd _))
    · have hset : w.issued.call (redis (.setex (key (w.ids 0)) s.ttlSeconds json)) =
          (.error (.other "ResponseError"), w.issued) := by
        rw [Server.call_redis, Redis.exec, Redis.setex, if_neg hs]
        rfl
      exact .inr ⟨_, (Server.call_bind_ok he _).trans (Server.call_bind_error hset _)⟩

section
variable (resolution : ApprovalResolution)

/-- `resolve` resolves a pending request for someone other than its agent. -/
theorem call_resolve_ok (hc : codec.Lawful) (h : Represents codec w L)
    (hn : w.now ≤ Python.datetimeMax)
    (hf : L.lookup resolution.requestId = some r) (hp : r.IsPending)
    (ha : resolution.approverIdentity ≠ r.agentId) :
    ∃ w', w.call (resolve codec resolution) = (.ok (r.resolved resolution w.now), w') ∧
      w'.ids = w.ids ∧
      Represents codec w' (L.close resolution.requestId (r.resolved resolution w.now)) := by
  obtain ⟨json, hj, hd⟩ := call_fetch_of_lookup hc h hf
  obtain ⟨hw, old, ho, -⟩ := h.live hf
  obtain ⟨new, hnew⟩ := ApprovalRequest.exists_dumpJson_resolved hc ho resolution w.now
  have hclock : w.call (ask .clock) = (.ok w.now, w) := rfl
  have hne := h.ne_pendingName (IndexedTable.find_eq_some_iff.mp hf).1
  have hr := h.setex hne (hw.resolved resolution hn) hnew 3600 (by decide) rfl
  obtain ⟨n, w', hrem, hids, hr'⟩ := hr.srem resolution.requestId
  have hp : ¬ r.status ≠ .pending := not_not_intro hp
  refine ⟨w', ?_, hids, hr'⟩
  rw [resolve, Server.call_bind_ok hj, Server.call_bind_ok hd, if_neg hp, if_neg ha,
    Server.call_bind_ok hclock]
  exact (Server.call_bind_ok (call_encode hnew) _).trans
    ((Server.call_bind_ok (call_setex (by decide)) _).trans (Server.call_bind_ok hrem _))

/-- `resolve` refuses a request that is resolved. -/
theorem call_resolve_alreadyResolved (hc : codec.Lawful) (h : Represents codec w L)
    (hf : L.lookup resolution.requestId = some r) (hp : ¬ r.IsPending) :
    ∃ message, w.call (resolve codec resolution) = (.error (.alreadyResolved message), w) := by
  obtain ⟨json, hj, hd⟩ := call_fetch_of_lookup hc h hf
  have hp : r.status ≠ .pending := hp
  rw [resolve, Server.call_bind_ok hj, Server.call_bind_ok hd, if_pos hp]
  exact ⟨_, rfl⟩

/-- `resolve` refuses an approver who is the agent. -/
theorem call_resolve_selfApproval (hc : codec.Lawful) (h : Represents codec w L)
    (hf : L.lookup resolution.requestId = some r) (hp : r.IsPending)
    (ha : resolution.approverIdentity = r.agentId) :
    ∃ message, w.call (resolve codec resolution) = (.error (.selfApproval message), w) := by
  obtain ⟨json, hj, hd⟩ := call_fetch_of_lookup hc h hf
  have hp : ¬ r.status ≠ .pending := not_not_intro hp
  rw [resolve, Server.call_bind_ok hj, Server.call_bind_ok hd, if_neg hp, if_pos ha]
  exact ⟨_, rfl⟩

/-- `resolve` resolves a pending request for someone other than its agent, or it raises and
leaves the server as it was. -/
theorem call_resolve (hc : codec.Lawful) (h : Represents codec w L)
    (hn : w.now ≤ Python.datetimeMax) :
    (∃ r, L.lookup resolution.requestId = some r ∧ r.IsPending ∧
      resolution.approverIdentity ≠ r.agentId ∧
      ∃ w', w.call (resolve codec resolution) = (.ok (r.resolved resolution w.now), w') ∧
        w'.ids = w.ids ∧
        Represents codec w' (L.close resolution.requestId (r.resolved resolution w.now))) ∨
    ∃ e, w.call (resolve codec resolution) = (.error e, w) := by
  cases hf : L.lookup resolution.requestId with
  | none =>
    obtain ⟨e, he⟩ := call_fetch_of_lookup_eq_none h hf
    exact .inr ⟨e, Server.call_bind_error he _⟩
  | some r =>
    by_cases hp : r.IsPending
    · by_cases ha : resolution.approverIdentity = r.agentId
      · obtain ⟨message, hm⟩ := call_resolve_selfApproval resolution hc h hf hp ha
        exact .inr ⟨_, hm⟩
      · exact .inl ⟨r, rfl, hp, ha, call_resolve_ok resolution hc h hn hf hp ha⟩
    · obtain ⟨message, hm⟩ := call_resolve_alreadyResolved resolution hc h hf hp
      exact .inr ⟨_, hm⟩

end

/-! ### Listing -/

/-- The loop answers the requests it finds and takes the other identifiers from the index. -/
theorem call_listFrom (hc : codec.Lawful) (h : Represents codec w L) {rids : List String}
    (hne : ∀ k ∈ rids, k ≠ pendingName) :
    ∃ w', w.call (listFrom codec rids) = (.ok (rids.filterMap L.lookup), w') ∧ w'.ids = w.ids ∧
      Represents codec w'
        { L with index := L.index.filter fun k ↦ k ∉ rids ∨ (L.lookup k).isSome } := by
  induction rids generalizing w L with
  | nil =>
    have hi : L.index.filter (fun k ↦ k ∉ [] ∨ (L.lookup k).isSome) = L.index :=
      List.filter_eq_self.mpr fun k _ ↦ decide_eq_true (.inl List.not_mem_nil)
    rw [hi]
    exact ⟨w, rfl, rfl, h⟩
  | cons rid rids ih =>
    have hne' : ∀ k ∈ rids, k ≠ pendingName := fun k hk ↦ hne k (List.mem_cons_of_mem _ hk)
    rw [listFrom]
    cases hf : L.lookup rid with
    | some r =>
      obtain ⟨w', hl, hids, hr⟩ := ih h hne'
      have hget : w.call (do return some (← get codec rid)) = (.ok (some r), w) :=
        Server.call_bind_ok (call_get_of_lookup hc h hf) _
      refine ⟨w', ?_, hids, ?_⟩
      · rw [Server.call_bind_ok (Server.call_handle_ok hget _), Server.call_bind_ok hl,
          List.filterMap_cons_some hf]
        rfl
      · have hi : L.index.filter (fun k ↦ k ∉ rid :: rids ∨ (L.lookup k).isSome) =
            L.index.filter (fun k ↦ k ∉ rids ∨ (L.lookup k).isSome) := by
          apply List.filter_congr
          intro k _
          by_cases hk : k = rid
          · simp [hk, hf]
          · simp [hk]
        rw [hi]
        exact hr
    | none =>
      obtain ⟨message, hm⟩ := call_get_of_lookup_eq_none h hf (hne rid List.mem_cons_self)
      have hget : w.call (do return some (← get codec rid)) = (.error (.notFound message), w) :=
        Server.call_bind_error hm _
      obtain ⟨n, w₁, hrem, hids₁, hr₁⟩ := h.srem rid
      obtain ⟨w', hl, hids, hr⟩ := ih hr₁ hne'
      refine ⟨w', ?_, hids.trans hids₁, ?_⟩
      · refine (Server.call_bind_ok ((Server.call_handle_error hget _).trans
          (Server.call_bind_ok hrem _)) _).trans ((Server.call_bind_ok hl _).trans ?_)
        rw [List.filterMap_cons_none hf]
        rfl
      · have hi : L.index.filter (fun k ↦ k ∉ rid :: rids ∨ (L.lookup k).isSome) =
            (L.index.filter (· ≠ rid)).filter (fun k ↦ k ∉ rids ∨ (L.lookup k).isSome) := by
          rw [List.filter_filter]
          apply List.filter_congr
          intro k _
          by_cases hk : k = rid
          · simp [hk, hf]
          · simp [hk]
        rw [hi]
        exact hr

/-- `list_pending` answers the listing of the table and prunes its index. -/
theorem call_listPending (hc : codec.Lawful) (h : Represents codec w L)
    (hx : L.Exact ApprovalRequest.keptUntil ApprovalRequest.IsPending) :
    ∃ w', w.call (listPending codec) = (.ok (L.listing ApprovalRequest.keptUntil), w') ∧
      w'.ids = w.ids ∧ Represents codec w' (L.prune ApprovalRequest.keptUntil) := by
  have hne : ∀ k ∈ L.index, k ≠ pendingName := by
    intro k hk
    obtain ⟨r, hr, -⟩ := hx.sound k hk
    exact h.ne_pendingName hr
  obtain ⟨w', hl, hids, hr⟩ := call_listFrom hc h hne
  have hmembers : w.call (redis (.smembers pendingSet)) = (.ok L.index, w) := by
    rw [Server.call_redis, Redis.exec, h.members]
    rfl
  have hi : L.index.filter (fun k ↦ k ∉ L.index ∨ (L.lookup k).isSome) =
      (L.prune ApprovalRequest.keptUntil).index := by
    apply List.filter_congr
    intro k hk
    simp [hk]
  rw [hi] at hr
  exact ⟨w', (Server.call_bind_ok hmembers _).trans hl, hids, hr⟩

end
end NhiSentinel.Approval
