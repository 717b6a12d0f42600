import NhiSentinel.Approval.Refinement

/-!
# Histories of the queue

Any sequence of calls on an approval queue, one at a time, while time passes between
them. Each stored request has the life that the calls tell: it is enqueued once and
resolved at most once.
-/

namespace NhiSentinel.Approval
open NhiSentinel.Base

/-- The calls on a queue. -/
inductive Call where
  | enqueue (s : Submission)
  | resolve (resolution : ApprovalResolution)
  | get (requestId : String)
  | listPending

/-- What a call returns. -/
@[reducible] def Call.Result : Call → Type
  | enqueue _ => ApprovalRequest
  | resolve _ => ApprovalRequest
  | get _ => ApprovalRequest
  | listPending => List ApprovalRequest

/-- The method of a call. -/
def Call.method (codec : Codec) : (c : Call) → QueueMethod c.Result
  | enqueue s => s.enqueue codec
  | resolve resolution => Approval.resolve codec resolution
  | get requestId => Approval.get codec requestId
  | listPending => Approval.listPending codec

/-- A call with its outcome. -/
abbrev Entry := (c : Call) × Except QueueExn c.Result

/-- The calls made so far with their outcomes, and the server after them. Time passes between
the calls, as far as a clock can show it. -/
inductive Run (codec : Codec) (w₀ : Server) : List Entry → Server → Prop where
  | start : Run codec w₀ [] w₀
  | call {t : List Entry} {w : Server} (h : Run codec w₀ t w) (c : Call) :
      Run codec w₀ (t ++ [⟨c, (w.call (c.method codec)).1⟩]) (w.call (c.method codec)).2
  | tick {t : List Entry} {w : Server} (h : Run codec w₀ t w) {now : Nat} (hn : w.now ≤ now)
      (hd : now ≤ Python.datetimeMax) : Run codec w₀ t { w with now := now }

/-- A server before the first call: no key of the queue is there, and the first identifiers
that it will give out are all different. -/
structure Server.Fresh (w : Server) (count : Nat) : Prop where
  store : ∀ id, w.store (key id) = none
  now : w.now ≤ Python.datetimeMax
  canonical : ∀ n < count, canonicalUuid (w.ids n) = true
  distinct : ∀ m < count, ∀ n < count, w.ids m = w.ids n → m = n

/-- A live record that the queue reads as the request. -/
def Stored (codec : Codec) (w : Server) (requestId : String) (r : ApprovalRequest) : Prop :=
  ∃ text, Holds w requestId text ∧ ApprovalRequest.validateJson? codec text = some r

/-- A pending request resolved by someone other than its agent: approved by the action
"approve", denied by every other. -/
structure ResolvedBy (resolution : ApprovalResolution) (r r' : ApprovalRequest) : Prop where
  pending : r.status = .pending
  requestId : resolution.requestId = r.requestId
  approver : resolution.approverIdentity ≠ r.agentId
  approved : r'.status = .approved ↔ resolution.action = "approve"
  denied : r'.status = .denied ↔ resolution.action ≠ "approve"
  changed : ∃ now, r' = { r with
    status := r'.status
    approverIdentity := some resolution.approverIdentity
    resolvedAt := some now }

/-- A pending request is resolved by a resolution of someone else. -/
theorem resolvedBy_resolved {r : ApprovalRequest} (hp : r.IsPending)
    {resolution : ApprovalResolution} (hid : resolution.requestId = r.requestId)
    (ha : resolution.approverIdentity ≠ r.agentId) (now : Nat) :
    ResolvedBy resolution r (r.resolved resolution now) where
  pending := hp
  requestId := hid
  approver := ha
  approved := r.approved_resolved_iff resolution now
  denied := r.denied_resolved_iff resolution now
  changed := ⟨now, rfl⟩

/-! ### What the calls tell of a request -/

/-- The calls that change what is stored of a request. -/
def Concerns (id : String) : Entry → Prop
  | ⟨.enqueue _, .ok r⟩ => r.requestId = id
  | ⟨.resolve resolution, .ok _⟩ => resolution.requestId = id
  | _ => False

/-- A request before its resolution. -/
structure New (id : String) (r : ApprovalRequest) : Prop where
  requestId : r.requestId = id
  pending : r.status = .pending
  approverIdentity : r.approverIdentity = none
  resolvedAt : r.resolvedAt = none

/-- What is stored of a request that is made is new. -/
theorem New.of_jsonForm {codec : Codec} {s : Submission} {id : String} {n : Nat}
    {r : ApprovalRequest} (h : (s.request id n).jsonForm codec = some r) : New id r := by
  obtain ⟨kvs, -, rfl⟩ := ApprovalRequest.jsonForm_eq_some_iff.mp h
  exact ⟨rfl, rfl, rfl, rfl⟩

/-- The life of a request: it is not there, it was enqueued, or it was enqueued and resolved. What
is there is the JSON form of what was enqueued. No other call has changed it. -/
inductive Tells (codec : Codec) (t : List Entry) (id : String) : Option ApprovalRequest → Prop where
  | absent (h : ∀ e ∈ t, ¬ Concerns id e) : Tells codec t id none
  | pending (s : Submission) (n : Nat) (r : ApprovalRequest)
      (hf : (s.request id n).jsonForm codec = some r)
      (he : ⟨.enqueue s, .ok (s.request id n)⟩ ∈ t)
      (h : ∀ e ∈ t, Concerns id e → e = ⟨.enqueue s, .ok (s.request id n)⟩) :
      Tells codec t id (some r)
  | resolved (s : Submission) (n : Nat) (r : ApprovalRequest)
      (hf : (s.request id n).jsonForm codec = some r)
      (he : ⟨.enqueue s, .ok (s.request id n)⟩ ∈ t) (resolution : ApprovalResolution) (now : Nat)
      (hr : ⟨.resolve resolution, .ok (r.resolved resolution now)⟩ ∈ t)
      (hid : resolution.requestId = id) (ha : resolution.approverIdentity ≠ r.agentId)
      (h : ∀ e ∈ t, Concerns id e → e = ⟨.enqueue s, .ok (s.request id n)⟩ ∨
        e = ⟨.resolve resolution, .ok (r.resolved resolution now)⟩) :
      Tells codec t id (some (r.resolved resolution now))

section
variable {codec : Codec} {t : List Entry} {w : Server} {L : Ledger} {id : String} {count : Nat}

/-- A call that does not concern a request adds nothing to its life. -/
theorem Tells.append {o : Option ApprovalRequest} (h : Tells codec t id o) {e : Entry}
    (he : ¬ Concerns id e) : Tells codec (t ++ [e]) id o := by
  have hold {e' : Entry} (hm : e' ∈ t ++ [e]) (hc : Concerns id e') : e' ∈ t := by
    rcases List.mem_append.mp hm with hm | hm
    · exact hm
    · exact absurd (List.mem_singleton.mp hm ▸ hc) he
  cases h with
  | absent h => exact .absent fun e' hm hc ↦ h e' (hold hm hc) hc
  | pending s n r hf hs h =>
    exact .pending s n r hf (List.mem_append_left _ hs) fun e' hm hc ↦ h e' (hold hm hc) hc
  | resolved s n r hf hs resolution now hr hid ha h =>
    exact .resolved s n r hf (List.mem_append_left _ hs) resolution now
      (List.mem_append_left _ hr) hid ha fun e' hm hc ↦ h e' (hold hm hc) hc

/-- A request that was not there is enqueued. -/
theorem Tells.enqueue (h : Tells codec t id none) {s : Submission} {n : Nat} {r : ApprovalRequest}
    (hf : (s.request id n).jsonForm codec = some r) :
    Tells codec (t ++ [⟨.enqueue s, .ok (s.request id n)⟩]) id (some r) := by
  cases h with
  | absent h =>
    refine .pending s n r hf (List.mem_append_right _ (List.mem_singleton_self _)) ?_
    intro e hm hc
    rcases List.mem_append.mp hm with hm | hm
    · exact absurd hc (h e hm)
    · exact List.mem_singleton.mp hm

/-- A pending request is resolved. -/
theorem Tells.resolve {r : ApprovalRequest} (h : Tells codec t id (some r)) (hp : r.IsPending)
    {resolution : ApprovalResolution} (hid : resolution.requestId = id)
    (ha : resolution.approverIdentity ≠ r.agentId) (now : Nat) :
    Tells codec (t ++ [⟨.resolve resolution, .ok (r.resolved resolution now)⟩]) id
      (some (r.resolved resolution now)) := by
  cases h with
  | pending s n r hf hs h =>
    refine .resolved s n r hf (List.mem_append_left _ hs) resolution now
      (List.mem_append_right _ (List.mem_singleton_self _)) hid ha ?_
    intro e hm hc
    rcases List.mem_append.mp hm with hm | hm
    · exact .inl (h e hm hc)
    · exact .inr (List.mem_singleton.mp hm)
  | resolved s n r hf hs resolution' now' =>
    exact absurd hp (r.not_isPending_resolved resolution' now')

/-- The record under an identifier is the request of that identifier. -/
theorem Tells.requestId {r : ApprovalRequest} (h : Tells codec t id (some r)) :
    r.requestId = id := by
  cases h with
  | pending s n r hf => exact (New.of_jsonForm hf).requestId
  | resolved s n r hf => exact (New.of_jsonForm hf).requestId

/-! ### Every history -/

/-- The server holds a table with an exact index, and what is in it is what the calls tell. The
next identifiers are not in it. -/
structure Kept (codec : Codec) (t : List Entry) (w : Server) (L : Ledger) (count : Nat) :
    Prop where
  represents : Represents codec w L
  exact : L.Exact ApprovalRequest.keptUntil ApprovalRequest.IsPending
  tells : ∀ id, Tells codec t id (L.record id)
  now : w.now ≤ Python.datetimeMax
  canonical : ∀ n < count, canonicalUuid (w.ids n) = true
  distinct : ∀ m < count, ∀ n < count, w.ids m = w.ids n → m = n
  unused : ∀ n < count, L.record (w.ids n) = none

/-- Before the first call the table is empty. -/
theorem Server.Fresh.kept (h : w.Fresh count) (codec : Codec) :
    Kept codec [] w ⟨fun _ ↦ none, [], w.now⟩ count where
  represents := {
    now := rfl
    absent := rfl
    record := fun id _ ↦ by
      rw [h.store id]
      exact .none
    index := h.store pendingName }
  exact := {
    nodup := .nil
    sound := nofun
    mem _ _ hf := nomatch (IndexedTable.find_eq_some_iff.mp hf).1 }
  tells _ := .absent fun _ he ↦ absurd he List.not_mem_nil
  now := h.now
  canonical := h.canonical
  distinct := h.distinct
  unused _ _ := rfl

/-- A call that concerns no request is no part of any life. -/
theorem Kept.append (h : Kept codec t w L count) {e : Entry} (he : ∀ id, ¬ Concerns id e) :
    Kept codec (t ++ [e]) w L count :=
  { h with tells := fun id ↦ (h.tells id).append (he id) }

/-- Fewer identifiers are needed. -/
theorem Kept.mono (h : Kept codec t w L count) {n : Nat} (hn : n ≤ count) :
    Kept codec t w L n :=
  { h with
    canonical := fun m hm ↦ h.canonical m (Nat.lt_of_lt_of_le hm hn)
    distinct := fun m hm m' hm' ↦
      h.distinct m (Nat.lt_of_lt_of_le hm hn) m' (Nat.lt_of_lt_of_le hm' hn)
    unused := fun m hm ↦ h.unused m (Nat.lt_of_lt_of_le hm hn) }

/-- A call of `enqueue`. -/
theorem Kept.enqueue (hc : codec.Lawful) (h : Kept codec t w L (count + 1)) (s : Submission) :
    ∃ L', Kept codec (t ++ [⟨.enqueue s, (w.call (s.enqueue codec)).1⟩])
      (w.call (s.enqueue codec)).2 L' count := by
  have hnext (n : Nat) (hn : n < count) : w.issued.ids n ≠ w.ids 0 := fun he ↦
    absurd (h.distinct _ (Nat.succ_lt_succ hn) _ (Nat.succ_pos _) he) (Nat.succ_ne_zero n)
  have hdistinct (m : Nat) (hm : m < count) (n : Nat) (hn : n < count)
      (he : w.issued.ids m = w.issued.ids n) : m = n :=
    Nat.succ_injective (h.distinct _ (Nat.succ_lt_succ hm) _ (Nat.succ_lt_succ hn) he)
  rcases call_enqueue hc h.represents s (h.canonical 0 (Nat.succ_pos _)) h.now with
    ⟨-, -, r, w', hf, hcall, hids, hr⟩ | ⟨e, hcall⟩
  · rw [hcall]
    have hself := h.tells (w.ids 0)
    rw [h.unused 0 (Nat.succ_pos _)] at hself
    refine ⟨_, hr, h.exact.insert (New.of_jsonForm hf).pending, fun id ↦ ?_, ?_, ?_, ?_,
      fun n hn ↦ ?_⟩
    · by_cases hid : id = w.ids 0
      · subst hid
        rw [IndexedTable.record_insert_self]
        exact hself.enqueue hf
      · rw [IndexedTable.record_insert_of_ne hid]
        exact (h.tells id).append (Ne.symm hid)
    · rw [← hr.now]
      exact h.represents.now.symm ▸ h.now
    · rw [hids]
      exact fun n hn ↦ h.canonical (n + 1) (Nat.succ_lt_succ hn)
    · rw [hids]
      exact hdistinct
    · rw [hids, IndexedTable.record_insert_of_ne (hnext n hn)]
      exact h.unused (n + 1) (Nat.succ_lt_succ hn)
  · rw [hcall]
    have hr : Represents codec w.issued L := by
      obtain ⟨hn, ha, hrec, hi⟩ := h.represents
      exact ⟨hn, ha, hrec, hi⟩
    exact ⟨L, hr, h.exact, fun id ↦ (h.tells id).append fun hc ↦ hc, h.now,
      fun n hn ↦ h.canonical (n + 1) (Nat.succ_lt_succ hn), hdistinct,
      fun n hn ↦ h.unused (n + 1) (Nat.succ_lt_succ hn)⟩

/-- A call of `resolve`. -/
theorem Kept.resolve (hc : codec.Lawful) (h : Kept codec t w L count)
    (resolution : ApprovalResolution) :
    ∃ L', Kept codec (t ++ [⟨.resolve resolution, (w.call (resolve codec resolution)).1⟩])
      (w.call (resolve codec resolution)).2 L' count := by
  rcases call_resolve resolution hc h.represents h.now with
    ⟨r, hf, hp, ha, w', hcall, hids, hr⟩ | ⟨e, hcall⟩
  · rw [hcall]
    have hrec := (IndexedTable.find_eq_some_iff.mp hf).1
    have hself := h.tells resolution.requestId
    rw [hrec] at hself
    refine ⟨_, hr, h.exact.close (r.not_isPending_resolved resolution w.now), fun id ↦ ?_, ?_, ?_,
      ?_, fun n hn ↦ ?_⟩
    · by_cases hid : id = resolution.requestId
      · subst hid
        rw [IndexedTable.record_close_self]
        exact hself.resolve hp rfl ha w.now
      · rw [IndexedTable.record_close_of_ne hid]
        exact (h.tells id).append (Ne.symm hid)
    · rw [← hr.now]
      exact h.represents.now.symm ▸ h.now
    · rw [hids]
      exact h.canonical
    · rw [hids]
      exact h.distinct
    · have hne : w.ids n ≠ resolution.requestId := by
        intro he
        cases (h.unused n hn).symm.trans (he ▸ hrec)
      rw [hids, IndexedTable.record_close_of_ne hne]
      exact h.unused n hn
  · rw [hcall]
    exact ⟨L, h.append fun _ hc ↦ hc⟩

/-- A call of `list_pending`. -/
theorem Kept.listPending (hc : codec.Lawful) (h : Kept codec t w L count) :
    ∃ w', w.call (listPending codec) = (.ok (L.listing ApprovalRequest.keptUntil), w') ∧
      Kept codec (t ++ [⟨.listPending, .ok (L.listing ApprovalRequest.keptUntil)⟩]) w'
        (L.prune ApprovalRequest.keptUntil) count := by
  obtain ⟨w', hcall, hids, hr⟩ := call_listPending hc h.represents h.exact
  refine ⟨w', hcall, hr, h.exact.prune, fun id ↦ (h.tells id).append fun hc ↦ hc, ?_, ?_, ?_, ?_⟩
  · rw [← hr.now]
    exact h.represents.now.symm ▸ h.now
  · rw [hids]
    exact h.canonical
  · rw [hids]
    exact h.distinct
  · rw [hids]
    exact h.unused

/-- Time passes. -/
theorem Kept.tick (h : Kept codec t w L count) {now : Nat} (hn : w.now ≤ now)
    (hd : now ≤ Python.datetimeMax) :
    Kept codec t { w with now := now } (L.advance now) count where
  represents := ⟨rfl, h.represents.absent, h.represents.record, h.represents.index⟩
  exact := h.exact.advance (h.represents.now.symm ▸ hn)
  tells := h.tells
  now := hd
  canonical := h.canonical
  distinct := h.distinct
  unused := h.unused

/-- After every history the server holds a table that the calls tell. -/
theorem Run.kept (hc : codec.Lawful) {w₀ : Server} {t₀ : List Entry} {L₀ : Ledger}
    (h : Run codec w₀ t w) (h₀ : Kept codec t₀ w₀ L₀ (count + t.length)) :
    ∃ L, Kept codec (t₀ ++ t) w L count := by
  induction h generalizing count with
  | start =>
    rw [List.append_nil]
    exact ⟨L₀, h₀⟩
  | @call t w h c ih =>
    rw [List.length_append, List.length_singleton, ← Nat.add_assoc, Nat.add_right_comm] at h₀
    obtain ⟨L, hk⟩ := ih h₀
    rw [← List.append_assoc]
    have hk' := hk.mono (Nat.le_succ count)
    cases c with
    | enqueue s => exact hk.enqueue hc s
    | resolve resolution => exact hk'.resolve hc resolution
    | get requestId =>
      have hs : (w.call (Call.method codec (.get requestId))).2 = w := call_get_state requestId
      rw [hs]
      exact ⟨L, hk'.append fun _ hc ↦ hc⟩
    | listPending =>
      obtain ⟨w', hcall, hl⟩ := hk'.listPending hc
      have hm : w.call (Call.method codec .listPending) = _ := hcall
      rw [hm]
      exact ⟨_, hl⟩
  | tick h hn hd ih =>
    obtain ⟨L, hk⟩ := ih h₀
    exact ⟨_, hk.tick hn hd⟩

/-- A history goes on with another. -/
theorem Run.trans {w₀ w' : Server} {t' : List Entry} (h : Run codec w₀ t w)
    (h' : Run codec w t' w') : Run codec w₀ (t ++ t') w' := by
  induction h' with
  | start =>
    rw [List.append_nil]
    exact h
  | call h' c ih =>
    rw [← List.append_assoc]
    exact ih.call c
  | tick h' hn hd ih => exact ih.tick hn hd

/-! ### What is stored -/

/-- What the queue reads is what is in the table. -/
theorem Represents.stored_iff (hc : codec.Lawful) (h : Represents codec w L)
    {r : ApprovalRequest} : Stored codec w id r ↔ L.lookup id = some r := by
  constructor
  · rintro ⟨text, ⟨expires, hl⟩, hv⟩
    by_cases hne : id = pendingName
    · subst hne
      have hk : key pendingName = pendingSet := by decide
      rw [hk, Redis.Store.live, h.index] at hl
      split at hl <;> cases hl
    cases hf : L.lookup id with
    | none => cases (h.live_eq_none hf hne).symm.trans hl
    | some r' =>
      obtain ⟨hw, json, hj, hl'⟩ := h.live hf
      have hd := ApprovalRequest.validateJson?_dumpJson hc hw hj
      have he := Option.some.inj (hl'.symm.trans hl)
      rw [Redis.Entry.mk.injEq, Redis.Data.text.injEq] at he
      rw [he.1] at hd
      exact hd.symm.trans hv
  · intro hf
    obtain ⟨hw, json, hj, hl⟩ := h.live hf
    exact ⟨json, ⟨_, hl⟩, ApprovalRequest.validateJson?_dumpJson hc hw hj⟩

/-- A stored request is pending until its approver and the time of its resolution are set. The
approver is not the agent, and all else is as it was enqueued: of the context its JSON form, which
a context that is JSON is itself. -/
structure Recorded (codec : Codec) (t : List Entry) (id : String) (r : ApprovalRequest) :
    Prop where
  approverIdentity : r.status = .pending ↔ r.approverIdentity = none
  resolvedAt : r.status = .pending ↔ r.resolvedAt = none
  approver : ∀ a, r.approverIdentity = some a → a ≠ r.agentId
  origin : ∃ s n r₀, ⟨.enqueue s, .ok (s.request id n)⟩ ∈ t ∧
    (s.request id n).jsonForm codec = some r₀ ∧
    (s.context.isJson = true → r₀ = s.request id n) ∧
    (r = r₀ ∨ ∃ resolution, ⟨.resolve resolution, .ok r⟩ ∈ t ∧ ResolvedBy resolution r₀ r)

/-- What the calls tell of a request is what is recorded. -/
theorem Tells.recorded (hc : codec.Lawful) {r : ApprovalRequest} (h : Tells codec t id (some r)) :
    Recorded codec t id r := by
  cases h with
  | pending s n r hf he =>
    have hn := New.of_jsonForm hf
    refine ⟨?_, ?_, ?_, s, n, r, he, hf, Submission.eq_of_jsonForm hc hf, .inl rfl⟩
    · exact iff_of_true hn.pending hn.approverIdentity
    · exact iff_of_true hn.pending hn.resolvedAt
    · intro a ha
      cases hn.approverIdentity.symm.trans ha
  | resolved s n r hf he resolution now hr hid ha =>
    have hn := New.of_jsonForm hf
    have hp := r.not_isPending_resolved resolution now
    refine ⟨?_, ?_, ?_, s, n, r, he, hf, Submission.eq_of_jsonForm hc hf, .inr ⟨resolution, hr, ?_⟩⟩
    · exact iff_of_false hp (Option.some_ne_none _)
    · exact iff_of_false hp (Option.some_ne_none _)
    · rintro a ⟨⟩
      exact ha
    · exact resolvedBy_resolved hn.pending (hid.trans hn.requestId.symm) ha now

private theorem eq_of_resolve_eq {resolution resolution' : ApprovalResolution}
    {r r' : ApprovalRequest}
    (h : (⟨.resolve resolution, .ok r⟩ : Entry) = ⟨.resolve resolution', .ok r'⟩) : r = r' := by
  cases h
  rfl

private theorem enqueue_inj {s s' : Submission} {r r' : ApprovalRequest}
    (h : (⟨.enqueue s, .ok r⟩ : Entry) = ⟨.enqueue s', .ok r'⟩) : r = r' := by
  cases h
  rfl

/-- What the calls tell of a request and what more calls tell of it later: it is as it was, or
one of these calls has resolved it. -/
theorem Tells.later {t' : List Entry} {r r' : ApprovalRequest} (h : Tells codec t id (some r))
    (h' : Tells codec (t ++ t') id (some r')) :
    r' = r ∨ ∃ resolution, ⟨.resolve resolution, .ok r'⟩ ∈ t' ∧ ResolvedBy resolution r r' := by
  cases h with
  | pending s n r hf he h =>
    have hn := New.of_jsonForm hf
    have hm : ⟨.enqueue s, .ok (s.request id n)⟩ ∈ t ++ t' := List.mem_append_left _ he
    cases h' with
    | pending s' n' r' hf' he' h' =>
      have heq := h' _ hm rfl
      rw [enqueue_inj heq] at hf
      exact .inl (Option.some.inj (hf'.symm.trans hf))
    | resolved s' n' r₀ hf' he' resolution now hr hid ha h' =>
      right
      rcases h' _ hm rfl with heq | heq
      · rw [enqueue_inj heq] at hf
        cases hf.symm.trans hf'
        refine ⟨resolution, ?_, resolvedBy_resolved hn.pending (hid.trans hn.requestId.symm) ha now⟩
        rcases List.mem_append.mp hr with hr | hr
        · cases h _ hr hid
        · exact hr
      · cases heq
  | resolved s n r hf he resolution now hr hid ha h =>
    have hm : ⟨.resolve resolution, .ok (r.resolved resolution now)⟩ ∈ t ++ t' :=
      List.mem_append_left _ hr
    cases h' with
    | pending s' n' r' hf' he' h' => cases h' _ hm hid
    | resolved s' n' r₀ hf' he' resolution' now' hr' hid' ha' h' =>
      left
      rcases h' _ hm hid with heq | heq
      · cases heq
      · exact (eq_of_resolve_eq heq).symm

/-! ### What is listed -/

/-- A request that was enqueued, has not expired and was not resolved, as it is stored. -/
structure OpenIn (codec : Codec) (t : List Entry) (now : Nat) (r : ApprovalRequest) : Prop where
  enqueued : ∃ s r₀, ⟨.enqueue s, .ok r₀⟩ ∈ t ∧ r₀.jsonForm codec = some r
  unexpired : now < r.expiresAt
  unresolved : ∀ resolution r', ⟨.resolve resolution, .ok r'⟩ ∈ t →
    resolution.requestId ≠ r.requestId

/-- The open requests of a history are the pending ones in the table. -/
theorem Kept.openIn_iff (h : Kept codec t w L count) {r : ApprovalRequest} :
    OpenIn codec t w.now r ↔ L.lookup r.requestId = some r ∧ r.IsPending := by
  have ht := h.tells r.requestId
  rw [IndexedTable.find_eq_some_iff, h.represents.now]
  constructor
  · rintro ⟨⟨s, r₀, hs, hf⟩, hx, hu⟩
    have hid : r₀.requestId = r.requestId := by
      obtain ⟨kvs, -, rfl⟩ := ApprovalRequest.jsonForm_eq_some_iff.mp hf
      rfl
    generalize ho : L.record r.requestId = o at ht
    cases ht with
    | absent ha => exact absurd hid (ha _ hs)
    | pending s' n r' hf' he ha =>
      rw [enqueue_inj (ha _ hs hid)] at hf
      cases hf'.symm.trans hf
      have hn := New.of_jsonForm hf'
      refine ⟨⟨rfl, ?_⟩, hn.pending⟩
      rw [ApprovalRequest.keptUntil, hn.resolvedAt]
      exact hx
    | resolved s' n r' hf' he resolution now hr hid' => exact absurd hid' (hu _ _ hr)
  · rintro ⟨⟨hr, hx⟩, hp⟩
    rw [hr] at ht
    cases ht with
    | pending s n r hf he ha =>
      rw [ApprovalRequest.keptUntil, (New.of_jsonForm hf).resolvedAt] at hx
      refine ⟨⟨s, _, he, hf⟩, hx, fun resolution r' hm hid ↦ ?_⟩
      cases ha _ hm hid
    | resolved s n r hf he resolution now =>
      exact absurd hp (r.not_isPending_resolved resolution now)

/-- An open request is stored. -/
theorem Kept.stored_of_openIn (hc : codec.Lawful) (h : Kept codec t w L count)
    {r : ApprovalRequest} (hr : OpenIn codec t w.now r) : Stored codec w r.requestId r :=
  (h.represents.stored_iff hc).mpr (h.openIn_iff.mp hr).1

end

/-! ### A first call -/

/-- A submission without context. -/
def submission : Submission where
  agentId := "spiffe://nhi-sentinel/agent/secops-agent"
  action := "iam:DeleteUser"
  resourceArn := "arn:aws:iam::000000000000:user/u"
  taskId := "task-1"
  policyRef := "nhi.destructive_gate"
  riskLevel := .high
  tokenJti := "jti-1"
  context := .obj []
  ttlSeconds := defaultTtlSeconds
  dictionary := rfl

/-- A server without keys that numbers its identifiers. -/
def emptyServer : Server where
  store := fun _ ↦ none
  now := 1709164800000042
  ids := fun n ↦ "00000000-0000-4000-8000-" ++ Python.pad 12 n

/-- The empty server draws new identifiers. -/
theorem emptyServer_fresh {count : Nat} (h : count ≤ 8) : emptyServer.Fresh count where
  store _ := rfl
  now := by decide
  canonical n hn :=
    (by decide +kernel : ∀ n < 8, canonicalUuid (emptyServer.ids n) = true) n
      (Nat.lt_of_lt_of_le hn h)
  distinct m hm n hn he := by
    have hp := (String.append_right_inj "00000000-0000-4000-8000-").mp he
    exact (Python.leftpad_toDigits_inj (by decide) (by decide)).mp (String.ofList_injective hp)

/-- The request that the submission becomes. -/
def firstRequest : ApprovalRequest := submission.request firstId 1709164800000042

/-- It is stored as it is. -/
theorem firstRequest_stored : ∃ json, firstRequest.WellFormed ∧
    firstRequest.dumpJson isoCodec = some json := by
  obtain ⟨json, hj⟩ : ∃ json, firstRequest.dumpJson isoCodec = some json := by
    apply Option.isSome_iff_exists.mp
    rw [ApprovalRequest.isSome_dumpJson isoCodec_lawful]
    rfl
  obtain ⟨r, hst⟩ := submission.exists_storedAs isoCodec_lawful
    (show canonicalUuid firstId = true by decide) (by decide) (by decide) hj
  cases (show firstRequest.jsonForm isoCodec = some firstRequest from rfl).symm.trans hst.form
  exact ⟨json, hst.wellFormed, hj⟩

/-- The call of `enqueue` on the empty server. -/
def firstCalls : List Entry := [⟨.enqueue submission, .ok firstRequest⟩]

/-- The server after it. -/
noncomputable def firstServer : Server := (emptyServer.call (submission.enqueue isoCodec)).2

private theorem firstRun : Run isoCodec emptyServer firstCalls firstServer := by
  have he : (emptyServer.call (submission.enqueue isoCodec)).1 = .ok firstRequest := rfl
  have h₀ : Run isoCodec emptyServer [] emptyServer := .start
  have h := h₀.call (.enqueue submission)
  rw [List.nil_append] at h
  rw [firstCalls, ← he]
  exact h

/-- The history of the server after the first call. -/
theorem firstRun_kept : ∃ L, Kept isoCodec firstCalls firstServer L 0 := by
  have hf : emptyServer.Fresh 1 := emptyServer_fresh (by decide)
  exact firstRun.kept isoCodec_lawful (hf.kept isoCodec)

/-- The first request is open after it was enqueued. -/
theorem firstRequest_open : OpenIn isoCodec firstCalls emptyServer.now firstRequest where
  enqueued := ⟨submission, firstRequest, List.mem_singleton_self _, rfl⟩
  unexpired := by decide
  unresolved resolution r hm := by cases List.mem_singleton.mp hm

/-! ### The queue over all histories -/

section
variable {codec : Codec} {t : List Entry} {w : Server}

/-- Every history of a queue: each stored request is pending or resolved once, by someone other
than its agent, with nothing else changed but a context that is no JSON, and a resolution that
raises changes nothing. -/
theorem approval_states (hc : codec.Lawful) {w₀ w' : Server} {t' : List Entry}
    (h₀ : w₀.Fresh (t.length + t'.length)) (h : Run codec w₀ t w) (h' : Run codec w t' w') :
    (∀ id r, Stored codec w id r → Recorded codec t id r) ∧
      (∀ id r r', Stored codec w id r → Stored codec w' id r' →
        r' = r ∨ ∃ resolution, ⟨.resolve resolution, .ok r'⟩ ∈ t' ∧ ResolvedBy resolution r r') ∧
      ∀ resolution e, (w.call (resolve codec resolution)).1 = .error e →
        (w.call (resolve codec resolution)).2 = w := by
  rw [Nat.add_comm] at h₀
  obtain ⟨L, hk⟩ := h.kept hc (h₀.kept codec)
  rw [List.nil_append] at hk
  have hk₀ : Kept codec t w L (0 + t'.length) := by rwa [Nat.zero_add]
  obtain ⟨L', hk'⟩ := h'.kept hc hk₀
  have htells {id : String} {r : ApprovalRequest} (hs : Stored codec w id r) :
      Tells codec t id (some r) := by
    rw [← (IndexedTable.find_eq_some_iff.mp ((hk.represents.stored_iff hc).mp hs)).1]
    exact hk.tells id
  refine ⟨fun id r hs ↦ (htells hs).recorded hc, fun id r r' hs hs' ↦ ?_, fun resolution e he ↦ ?_⟩
  · apply (htells hs).later
    rw [← (IndexedTable.find_eq_some_iff.mp ((hk'.represents.stored_iff hc).mp hs')).1]
    exact hk'.tells id
  · rcases call_resolve resolution hc hk.represents hk.now with
      ⟨r, -, -, -, w', hcall, -⟩ | ⟨e', hcall⟩
    · rw [hcall] at he
      cases he
    · rw [hcall]

end

/-- The approval of a person. -/
def firstApproval : ApprovalResolution := ⟨firstId, "approve", "user:alice", none⟩

/-- The first request is stored as it was enqueued, and then as it was approved. -/
theorem firstRequest_recorded : ∃ w r,
    Run isoCodec firstServer [⟨.resolve firstApproval, .ok r⟩] w ∧
      Stored isoCodec firstServer firstId firstRequest ∧
      Recorded isoCodec firstCalls firstId firstRequest ∧
      Stored isoCodec w firstId r ∧ ResolvedBy firstApproval firstRequest r := by
  obtain ⟨L, hk⟩ := firstRun_kept
  have hnow : firstServer.now = emptyServer.now := rfl
  have hopen : OpenIn isoCodec firstCalls firstServer.now firstRequest := hnow ▸ firstRequest_open
  have hlookup : L.lookup firstApproval.requestId = some firstRequest := (hk.openIn_iff.mp hopen).1
  have hs := hk.stored_of_openIn isoCodec_lawful hopen
  obtain ⟨w, hcall, -, hrep⟩ := call_resolve_ok firstApproval isoCodec_lawful hk.represents hk.now
    hlookup rfl (by decide)
  let r := firstRequest.resolved firstApproval firstServer.now
  have hrun : Run isoCodec firstServer [⟨.resolve firstApproval, .ok r⟩] w := by
    have h₀ : Run isoCodec firstServer [] firstServer := .start
    have h := h₀.call (.resolve firstApproval)
    rwa [List.nil_append, Call.method, hcall] at h
  have hs' : Stored isoCodec w firstId r :=
    (hrep.stored_iff isoCodec_lawful).mpr (Ledger.lookup_close L _ _ _ hk.represents.now)
  have hf : emptyServer.Fresh 2 := emptyServer_fresh (by decide)
  obtain ⟨hrec, hlater, -⟩ := approval_states isoCodec_lawful hf firstRun hrun
  refine ⟨w, r, hrun, hs, hrec _ _ hs, hs', ?_⟩
  rcases hlater _ _ _ hs hs' with heq | ⟨resolution, hm, hby⟩
  · cases congrArg ApprovalRequest.status heq
  · cases List.mem_singleton.mp hm
    exact hby

/-- A submission with a datetime in its context. -/
def datedSubmission : Submission :=
  { submission with context := .obj [("deadline", .other true)], dictionary := rfl }

/-- A context that is no JSON is stored in another form than it was enqueued in. -/
theorem context_rewritten : ∃ t w r, emptyServer.Fresh t.length ∧
    Run isoCodec emptyServer t w ∧ Stored isoCodec w firstId r ∧
      ¬ ∃ s n, ⟨.enqueue s, .ok (s.request firstId n)⟩ ∈ t ∧
        (r = s.request firstId n ∨ ∃ resolution, ⟨.resolve resolution, .ok r⟩ ∈ t ∧
          ResolvedBy resolution (s.request firstId n) r) := by
  let r₀ := datedSubmission.request firstId emptyServer.now
  let r := { r₀ with context := .obj [("deadline", .str (isoText 0))] }
  have hrun : Run isoCodec emptyServer [⟨.enqueue datedSubmission, .ok r₀⟩]
      (emptyServer.call (datedSubmission.enqueue isoCodec)).2 := by
    have he : (emptyServer.call (datedSubmission.enqueue isoCodec)).1 = .ok r₀ := rfl
    have h₀ : Run isoCodec emptyServer [] emptyServer := .start
    have h := h₀.call (.enqueue datedSubmission)
    rwa [List.nil_append, Call.method, he] at h
  have hf : emptyServer.Fresh 1 := emptyServer_fresh (by decide)
  obtain ⟨L, hk⟩ := hrun.kept isoCodec_lawful (hf.kept isoCodec)
  have hopen : OpenIn isoCodec [⟨.enqueue datedSubmission, .ok r₀⟩] emptyServer.now r := by
    refine ⟨⟨datedSubmission, r₀, List.mem_singleton_self _, rfl⟩, by decide, fun _ _ hm ↦ ?_⟩
    cases List.mem_singleton.mp hm
  have hs := hk.stored_of_openIn isoCodec_lawful hopen
  refine ⟨_, _, r, by exact hf, hrun, hs, ?_⟩
  rintro ⟨s, n, hm, h | ⟨resolution, hm', -⟩⟩
  · have heq := enqueue_inj (List.mem_singleton.mp hm)
    cases (congrArg ApprovalRequest.context h).trans (congrArg ApprovalRequest.context heq)
  · cases List.mem_singleton.mp hm'

section
variable {codec : Codec} {t : List Entry} {w : Server}

end

end NhiSentinel.Approval
