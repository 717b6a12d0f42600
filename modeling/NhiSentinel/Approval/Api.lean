import NhiSentinel.Approval.History

/-!
# The approval API

The endpoints of `approval/api.py` on the approval queue. A path parameter or a body that the
framework does not validate is answered by 422 before the endpoint runs, and an exception that
an endpoint does not catch by 500.
-/

namespace NhiSentinel.Approval
open NhiSentinel.Base NhiSentinel.Pep

/-! ### Endpoints -/

/-- `ResolveRequest`, `api.py:42`. -/
structure ResolveRequest where
  action : String
  approverIdentity : String
  reason : Option String

/-- `ResolveRequest.model_validate`. -/
def ResolveRequest.validate? (v : Value) : Option ResolveRequest := do
  let action ← validateStr (← v.get? "action")
  let approverIdentity ← validateStr (← v.get? "approver_identity")
  let reason ← validateStrOrNone (v.get? "reason")
  return { action, approverIdentity, reason }

/-- What a response carries: a request, a list of them, the detail of an error, or the errors of
a validation. -/
inductive ResponseBody where
  | approval (request : ApprovalRequest)
  | approvals (requests : List ApprovalRequest)
  | detail (message : String)
  | invalid

/-- A response with its status. -/
structure Response where
  status : Nat
  body : ResponseBody

/-- `list_pending`, `api.py:54`. -/
def listPendingEndpoint (codec : Codec) : QueueMethod Response := do
  return ⟨200, .approvals (← listPending codec)⟩

/-- `get_approval`, `api.py:60`. -/
def getApproval (codec : Codec) (requestId : String) : QueueMethod Response :=
  Py.handle (do return ⟨200, .approval (← get codec requestId)⟩) fun
    | .notFound message => pure ⟨404, .detail message⟩
    | e => Py.raise e

/-- The resolution that a body asks for, `api.py:80`. -/
def ResolveRequest.resolution (body : ResolveRequest) (requestId : String) :
    ApprovalResolution where
  requestId := requestId
  action := body.action
  approverIdentity := body.approverIdentity
  reason := body.reason

/-- `resolve_approval`, `api.py:69`. -/
def resolveApproval (codec : Codec) (requestId : String) (body : ResolveRequest) :
    QueueMethod Response :=
  if body.action ≠ "approve" ∧ body.action ≠ "deny" then
    pure ⟨422, .detail "action must be 'approve' or 'deny'"⟩
  else
    Py.handle (do return ⟨200, .approval (← resolve codec (body.resolution requestId))⟩) fun
      | .notFound message => pure ⟨404, .detail message⟩
      | .alreadyResolved message => pure ⟨409, .detail message⟩
      | .selfApproval message => pure ⟨403, .detail message⟩
      | e => Py.raise e

/-- The requests that the service routes, with the text of a path parameter and the document of
a body. -/
inductive HttpRequest where
  | listPending
  | getApproval (requestId : String)
  | resolveApproval (requestId : String) (body : Value)

/-- The endpoint of a request, on what the framework validates. -/
def endpoint (codec : Codec) : HttpRequest → QueueMethod Response
  | .listPending => listPendingEndpoint codec
  | .getApproval text =>
    match codec.readUuid (.str text) with
    | some requestId => getApproval codec requestId
    | none => pure ⟨422, .invalid⟩
  | .resolveApproval text body =>
    match codec.readUuid (.str text), ResolveRequest.validate? body with
    | some requestId, some body => resolveApproval codec requestId body
    | _, _ => pure ⟨422, .invalid⟩

/-- The response to a request, and the server after it. -/
def Server.respond (w : Server) (codec : Codec) (request : HttpRequest) : Response × Server :=
  match w.call (endpoint codec request) with
  | (.ok response, w') => (response, w')
  | (.error _, w') => (⟨500, .detail "Internal Server Error"⟩, w')

/-! ### What a resolution raises -/

/-- The documented behaviour of the validation library, with the text that it gives an identifier
whichever way that is written. -/
structure Codec.Canonical (codec : Codec) : Prop extends codec.Lawful where
  canonical : ∀ v s, codec.readUuid v = some s → canonicalUuid s = true

private theorem isoCodec_canonical : isoCodec.Canonical where
  toLawful := isoCodec_lawful
  canonical v s h := by
    cases v with
    | str t =>
      have h' : (if canonicalUuid t then some t else none) = some s := h
      split at h' <;> cases h'
      assumption
    | _ => cases h

section
variable {codec : Codec} {w : Server} {L : Ledger} (resolution : ApprovalResolution)

private theorem call_resolve_notFound (h : Represents codec w L)
    (hne : resolution.requestId ≠ pendingName) (hf : L.lookup resolution.requestId = none) :
    ∃ message, w.call (resolve codec resolution) = (.error (.notFound message), w) := by
  obtain ⟨message, hm⟩ := call_fetch_of_absent (h.live_eq_none hf hne)
  exact ⟨message, Server.call_bind_error hm _⟩

end

/-! ### Responses -/

/-- The status of a resolution, by what is stored of its request. -/
def patchStatus (stored : Option ApprovalRequest) (approverIdentity : String) : Nat :=
  match stored with
  | none => 404
  | some r =>
    if r.status ≠ .pending then 409
    else if approverIdentity = r.agentId then 403
    else 200

/-- A resolution that is asked for on a server: its status tells what is stored of the request,
and nothing changes unless it succeeds. -/
structure Patched (codec : Codec) (w : Server) (id : String) (body : ResolveRequest)
    (response : Response) (w' : Server) : Prop where
  status : ∀ stored : Option ApprovalRequest, (∀ r, Stored codec w id r ↔ stored = some r) →
    response.status = patchStatus stored body.approverIdentity
  result : response.status = 200 → ∃ r r', Stored codec w id r ∧
    ResolvedBy (body.resolution id) r r' ∧ response.body = .approval r' ∧ Stored codec w' id r'
  unchanged : response.status ≠ 200 → w' = w

/-- What a request is answered on a server. -/
def Answered (codec : Codec) (w : Server) (response : Response) (w' : Server) :
    HttpRequest → Prop
  | .listPending => ∃ rs, response = ⟨200, .approvals rs⟩ ∧
      (rs.map ApprovalRequest.requestId).Nodup ∧
      ∀ r, r ∈ rs ↔ Stored codec w r.requestId r ∧ r.status = .pending
  | .getApproval text => w' = w ∧
      match codec.readUuid (.str text) with
      | none => response.status = 422
      | some id => (∃ r, Stored codec w id r ∧ response = ⟨200, .approval r⟩) ∨
          (¬ ∃ r, Stored codec w id r) ∧ response.status = 404
  | .resolveApproval text body =>
      match codec.readUuid (.str text), ResolveRequest.validate? body with
      | some id, some body =>
        if body.action = "approve" ∨ body.action = "deny" then Patched codec w id body response w'
        else response.status = 422 ∧ w' = w
      | _, _ => response.status = 422 ∧ w' = w

section
variable {codec : Codec} {t : List Entry} {w w' : Server} {L : Ledger} {id : String} {count : Nat}

/-- A method that answers is a response. -/
theorem respond_of_call (request : HttpRequest) {response : Response}
    (h : w.call (endpoint codec request) = (.ok response, w')) :
    w.respond codec request = (response, w') := by
  rw [Server.respond, h]

/-- A record is kept under its own identifier. -/
theorem Kept.requestId (h : Kept codec t w L count) {r : ApprovalRequest}
    (hr : L.record id = some r) : r.requestId = id := by
  have ht := h.tells id
  rw [hr] at ht
  exact ht.requestId

private theorem not_stored_iff (hc : codec.Lawful) (h : Represents codec w L) :
    (¬ ∃ r, Stored codec w id r) ↔ L.lookup id = none := by
  rw [Option.eq_none_iff_forall_not_mem, not_exists]
  exact forall_congr' fun r ↦ not_congr (h.stored_iff hc)

/-- What is stored of an identifier is what the table has. -/
theorem eq_lookup_of_stored_iff (hc : codec.Lawful) (h : Represents codec w L)
    {stored : Option ApprovalRequest} (hs : ∀ r, Stored codec w id r ↔ stored = some r) :
    stored = L.lookup id :=
  Option.ext fun r ↦ (hs r).symm.trans (h.stored_iff hc)

/-- A read by its identifier. -/
theorem call_getApproval (hc : codec.Lawful) (h : Represents codec w L) (hne : id ≠ pendingName) :
    (∃ r, Stored codec w id r ∧
      w.call (getApproval codec id) = (.ok ⟨200, .approval r⟩, w)) ∨
    (¬ ∃ r, Stored codec w id r) ∧
      ∃ message, w.call (getApproval codec id) = (.ok ⟨404, .detail message⟩, w) := by
  cases hf : L.lookup id with
  | some r =>
    refine .inl ⟨r, (h.stored_iff hc).mpr hf, ?_⟩
    exact Server.call_handle_ok (Server.call_bind_ok (call_get_of_lookup hc h hf) _) _
  | none =>
    obtain ⟨message, hm⟩ := call_get_of_lookup_eq_none h hf hne
    refine .inr ⟨(not_stored_iff hc h).mpr hf, message, ?_⟩
    exact Server.call_handle_error (Server.call_bind_error hm _) _

/-- A resolution that is refused changes nothing. -/
theorem patched_of_refused (hc : codec.Lawful) (h : Represents codec w L) {body : ResolveRequest}
    {status : Nat} {message : String}
    (hs : status = patchStatus (L.lookup id) body.approverIdentity) (hne : status ≠ 200) :
    Patched codec w id body ⟨status, .detail message⟩ w where
  status stored hst := by rw [eq_lookup_of_stored_iff hc h hst, ← hs]
  result hok := absurd hok hne
  unchanged _ := rfl

/-- What `resolve` comes to behind the endpoint. -/
def resolutionOf (codec : Codec) (w : Server) (id : String) (body : ResolveRequest) :
    Except QueueExn ApprovalRequest × Server := w.call (resolve codec (body.resolution id))

/-- A resolution by what is stored of its request. -/
theorem call_resolveApproval (hc : codec.Lawful) (h : Represents codec w L)
    (hn : w.now ≤ Python.datetimeMax) (hne : id ≠ pendingName) {body : ResolveRequest}
    (ha : body.action = "approve" ∨ body.action = "deny")
    (hid : ∀ r, L.record id = some r → r.requestId = id) :
    ∃ response, w.call (resolveApproval codec id body) =
        (.ok response, (resolutionOf codec w id body).2) ∧
      Patched codec w id body response (resolutionOf codec w id body).2 ∧
      (response.status = 200 → ∃ r', (resolutionOf codec w id body).1 = .ok r') := by
  have hact : ¬ (body.action ≠ "approve" ∧ body.action ≠ "deny") := fun hx ↦ ha.elim hx.1 hx.2
  rw [resolveApproval, if_neg hact, resolutionOf]
  cases hf : L.lookup id with
  | none =>
    obtain ⟨message, hm⟩ := call_resolve_notFound (body.resolution id) h hne hf
    rw [hm]
    exact ⟨⟨404, .detail message⟩, Server.call_handle_error (Server.call_bind_error hm _) _,
      patched_of_refused hc h (by rw [hf]; rfl) (by decide), nofun⟩
  | some r =>
    by_cases hp : r.IsPending
    · have hp' : ¬ r.status ≠ .pending := not_not_intro hp
      by_cases hs : body.approverIdentity = r.agentId
      · obtain ⟨message, hm⟩ :=
          call_resolve_selfApproval (body.resolution id) hc h hf hp hs
        have hstatus : 403 = patchStatus (L.lookup id) body.approverIdentity := by
          rw [hf, patchStatus, if_neg hp', if_pos hs]
        rw [hm]
        exact ⟨⟨403, .detail message⟩, Server.call_handle_error (Server.call_bind_error hm _) _,
          patched_of_refused hc h hstatus (by decide), nofun⟩
      · obtain ⟨w', hok, -, hrep⟩ := call_resolve_ok (body.resolution id) hc h hn hf hp hs
        have hrec := (IndexedTable.find_eq_some_iff.mp hf).1
        rw [hok]
        refine ⟨⟨200, .approval (r.resolved (body.resolution id) w.now)⟩,
          Server.call_handle_ok (Server.call_bind_ok hok _) _,
          ⟨fun stored hst ↦ ?_, fun _ ↦ ?_, fun hx ↦ absurd rfl hx⟩, fun _ ↦ ⟨_, rfl⟩⟩
        · rw [eq_lookup_of_stored_iff hc h hst, hf, patchStatus, if_neg hp', if_neg hs]
        · refine ⟨r, _, (h.stored_iff hc).mpr hf,
            resolvedBy_resolved hp (hid r hrec).symm hs w.now, rfl, ?_⟩
          exact (hrep.stored_iff hc).mpr (Ledger.lookup_close L id r _ h.now)
    · obtain ⟨message, hm⟩ :=
        call_resolve_alreadyResolved (body.resolution id) hc h hf hp
      have hstatus : 409 = patchStatus (L.lookup id) body.approverIdentity := by
        have hp' : r.status ≠ .pending := hp
        rw [hf, patchStatus, if_pos hp']
      rw [hm]
      exact ⟨⟨409, .detail message⟩, Server.call_handle_error (Server.call_bind_error hm _) _,
        patched_of_refused hc h hstatus (by decide), nofun⟩

/-- A request to resolve that the framework and the endpoint take. -/
theorem respond_resolveApproval (hc : codec.Canonical) (h : Kept codec t w L count) {text : String}
    {v : Value} {body : ResolveRequest} (hid : codec.readUuid (.str text) = some id)
    (hv : ResolveRequest.validate? v = some body)
    (ha : body.action = "approve" ∨ body.action = "deny") :
    ∃ response, w.respond codec (.resolveApproval text v) =
        (response, (resolutionOf codec w id body).2) ∧
      Patched codec w id body response (resolutionOf codec w id body).2 ∧
      (response.status = 200 → ∃ r', (resolutionOf codec w id body).1 = .ok r') := by
  obtain ⟨response, hcall, hpatched, hok⟩ := call_resolveApproval hc.toLawful h.represents h.now
    (ne_pendingName (hc.canonical _ _ hid)) ha fun r ↦ h.requestId
  refine ⟨response, respond_of_call _ ?_, hpatched, hok⟩
  rw [endpoint, hid, hv]
  exact hcall

/-- Everything that is listed is pending and stored under its identifier. -/
theorem Kept.mem_listing (h : Kept codec t w L count) {r : ApprovalRequest} :
    r ∈ L.listing ApprovalRequest.keptUntil ↔ L.lookup r.requestId = some r ∧ r.IsPending := by
  rw [h.exact.mem_listing]
  constructor
  · rintro ⟨k, hf, hp⟩
    rw [h.requestId (IndexedTable.find_eq_some_iff.mp hf).1]
    exact ⟨hf, hp⟩
  · intro hf
    exact ⟨r.requestId, hf⟩

/-! ### Histories of the API -/

/-- A resolution that is answered by 200 is a call of `resolve` that returned. -/
def Mirrored (codec : Codec) (calls : List Entry) : HttpRequest → Response → Prop
  | .resolveApproval text _, response => ∀ id, codec.readUuid (.str text) = some id →
      response.status = 200 →
        ∃ resolution r, resolution.requestId = id ∧ ⟨.resolve resolution, .ok r⟩ ∈ calls
  | _, _ => True

/-- What mirrors the queue still does after more calls. -/
theorem Mirrored.append {calls : List Entry} {request : HttpRequest} {response : Response}
    (h : Mirrored codec calls request response) (calls' : List Entry) :
    Mirrored codec (calls ++ calls') request response := by
  cases request with
  | resolveApproval text body =>
    intro id hid hs
    obtain ⟨resolution, r, hr, hm⟩ := h id hid hs
    exact ⟨resolution, r, hr, List.mem_append_left _ hm⟩
  | listPending => trivial
  | getApproval text => trivial

/-- A request is answered by what is stored, and what it changes are calls on the queue. -/
def Served (codec : Codec) (t : List Entry) (w : Server) (count : Nat) (request : HttpRequest) :
    Prop :=
  Answered codec w (w.respond codec request).1 (w.respond codec request).2 request ∧
    ∃ calls L', Kept codec (t ++ calls) (w.respond codec request).2 L' count ∧
      Mirrored codec (t ++ calls) request (w.respond codec request).1

/-- A request that is answered without a call on the queue. -/
theorem Kept.served_of_refused (h : Kept codec t w L count) {request : HttpRequest}
    (response : Response) (he : endpoint codec request = pure response)
    (hs : response.status = 422) (ha : Answered codec w response w request) :
    Served codec t w count request := by
  have hcall : w.call (endpoint codec request) = (.ok response, w) := by
    rw [he]
    rfl
  rw [Served, respond_of_call _ hcall]
  refine ⟨ha, [], L, by rwa [List.append_nil], ?_⟩
  cases request with
  | resolveApproval text body =>
    intro id _ h200
    cases hs.symm.trans h200
  | listPending => trivial
  | getApproval text => trivial

private theorem Kept.served_listPending (hc : codec.Canonical) (h : Kept codec t w L count) :
    Served codec t w count .listPending := by
  obtain ⟨w', hcall, hk⟩ := h.listPending hc.toLawful
  have hr := respond_of_call .listPending (Server.call_bind_ok hcall _)
  rw [Served, hr]
  refine ⟨⟨_, rfl, h.exact.nodup_listing fun k r ↦ h.requestId, fun r ↦ ?_⟩, _, _, hk, trivial⟩
  rw [h.mem_listing, h.represents.stored_iff hc.toLawful]
  rfl

private theorem Kept.served_getApproval (hc : codec.Canonical) (h : Kept codec t w L count)
    (text : String) : Served codec t w count (.getApproval text) := by
  cases hid : codec.readUuid (.str text) with
  | none =>
    refine h.served_of_refused ⟨422, .invalid⟩ (by rw [endpoint, hid]) rfl ?_
    rw [Answered, hid]
    exact ⟨rfl, rfl⟩
  | some id =>
    have hend : endpoint codec (.getApproval text) = getApproval codec id := by
      rw [endpoint, hid]
    have hne := ne_pendingName (hc.canonical _ _ hid)
    rcases call_getApproval hc.toLawful h.represents hne with ⟨r, hs, hcall⟩ | ⟨hs, m, hcall⟩
    · rw [Served, respond_of_call _ (hend ▸ hcall), Answered, hid]
      exact ⟨⟨rfl, .inl ⟨r, hs, rfl⟩⟩, [], L, by rwa [List.append_nil], trivial⟩
    · rw [Served, respond_of_call _ (hend ▸ hcall), Answered, hid]
      exact ⟨⟨rfl, .inr ⟨hs, rfl⟩⟩, [], L, by rwa [List.append_nil], trivial⟩

private theorem Kept.served_resolveApproval (hc : codec.Canonical) (h : Kept codec t w L count)
    (text : String) (v : Value) : Served codec t w count (.resolveApproval text v) := by
  cases hid : codec.readUuid (.str text) with
  | none =>
    refine h.served_of_refused ⟨422, .invalid⟩ (by rw [endpoint, hid]) rfl ?_
    rw [Answered, hid]
    exact ⟨rfl, rfl⟩
  | some id =>
    cases hv : ResolveRequest.validate? v with
    | none =>
      refine h.served_of_refused ⟨422, .invalid⟩ (by rw [endpoint, hid, hv]) rfl ?_
      rw [Answered, hid, hv]
      exact ⟨rfl, rfl⟩
    | some body =>
      by_cases hact : body.action = "approve" ∨ body.action = "deny"
      · obtain ⟨response, hr, hpatched, hok⟩ := respond_resolveApproval hc h hid hv hact
        obtain ⟨L', hk⟩ := h.resolve hc.toLawful (body.resolution id)
        rw [Served, hr, Answered, hid, hv]
        dsimp only
        rw [if_pos hact]
        refine ⟨hpatched, _, L', hk, fun id' hid' h200 ↦ ?_⟩
        cases hid.symm.trans hid'
        obtain ⟨r', hres⟩ := hok h200
        refine ⟨body.resolution id, r', rfl, List.mem_append_right _ ?_⟩
        rw [← hres]
        exact List.mem_singleton_self _
      · have hn : body.action ≠ "approve" ∧ body.action ≠ "deny" := not_or.mp hact
        refine h.served_of_refused
          ⟨422, .detail "action must be 'approve' or 'deny'"⟩ ?_ rfl ?_
        · rw [endpoint, hid, hv]
          exact if_pos hn
        · rw [Answered, hid, hv]
          dsimp only
          rw [if_neg hact]
          exact ⟨rfl, rfl⟩

/-- Every request is answered by what is stored. -/
theorem Kept.served (hc : codec.Canonical) (h : Kept codec t w L count) (request : HttpRequest) :
    Served codec t w count request := by
  cases request with
  | listPending => exact h.served_listPending hc
  | getApproval text => exact h.served_getApproval hc text
  | resolveApproval text body => exact h.served_resolveApproval hc text body

end

/-- What happens to a server: an agent enqueues, or a request is answered. -/
inductive Exchange where
  | enqueue (s : Submission) (outcome : Except QueueExn ApprovalRequest)
  | http (request : HttpRequest) (response : Response)

/-- The exchanges so far and the server after them. -/
inductive ApiRun (codec : Codec) (w₀ : Server) : List Exchange → Server → Prop where
  | start : ApiRun codec w₀ [] w₀
  | enqueue {t : List Exchange} {w : Server} (h : ApiRun codec w₀ t w) (s : Submission) :
      ApiRun codec w₀ (t ++ [.enqueue s (w.call (s.enqueue codec)).1])
        (w.call (s.enqueue codec)).2
  | http {t : List Exchange} {w : Server} (h : ApiRun codec w₀ t w) (request : HttpRequest) :
      ApiRun codec w₀ (t ++ [.http request (w.respond codec request).1])
        (w.respond codec request).2
  | tick {t : List Exchange} {w : Server} (h : ApiRun codec w₀ t w) {now : Nat} (hn : w.now ≤ now)
      (hd : now ≤ Python.datetimeMax) : ApiRun codec w₀ t { w with now := now }

section
variable {codec : Codec} {t : List Exchange} {w w₀ : Server} {count : Nat}

/-- Behind the exchanges is a history of the queue, with a call of `resolve` for each resolution
that was answered by 200. -/
theorem ApiRun.kept (hc : codec.Canonical) (h : ApiRun codec w₀ t w)
    (h₀ : w₀.Fresh (count + t.length)) :
    ∃ calls L, Kept codec calls w L count ∧
      ∀ request response, .http request response ∈ t → Mirrored codec calls request response := by
  induction h generalizing count with
  | start => exact ⟨[], _, h₀.kept codec, fun _ _ hm ↦ absurd hm List.not_mem_nil⟩
  | @enqueue t w h s ih =>
    rw [List.length_append, List.length_singleton, ← Nat.add_assoc, Nat.add_right_comm] at h₀
    obtain ⟨calls, L, hk, hm⟩ := ih h₀
    obtain ⟨L', hk'⟩ := hk.enqueue hc.toLawful s
    refine ⟨_, L', hk', fun request response hr ↦ ?_⟩
    rcases List.mem_append.mp hr with hr | hr
    · exact (hm _ _ hr).append _
    · cases List.mem_singleton.mp hr
  | @http t w h request ih =>
    rw [List.length_append, List.length_singleton, ← Nat.add_assoc, Nat.add_right_comm] at h₀
    obtain ⟨calls, L, hk, hm⟩ := ih h₀
    obtain ⟨-, calls', L', hk', hm'⟩ := (hk.mono (Nat.le_succ count)).served hc request
    refine ⟨_, L', hk', fun request response hr ↦ ?_⟩
    rcases List.mem_append.mp hr with hr | hr
    · exact (hm _ _ hr).append _
    · cases List.mem_singleton.mp hr
      exact hm'
  | tick h hn hd ih =>
    obtain ⟨calls, L, hk, hm⟩ := ih h₀
    exact ⟨calls, _, hk.tick hn hd, hm⟩

end

/-- What is stored of a request that was resolved is not pending. -/
theorem Tells.not_isPending {codec : Codec} {t : List Entry} {id : String} {r : ApprovalRequest}
    (h : Tells codec t id (some r)) {resolution : ApprovalResolution} {r' : ApprovalRequest}
    (hid : resolution.requestId = id) (hm : ⟨.resolve resolution, .ok r'⟩ ∈ t) : ¬ r.IsPending := by
  cases h with
  | pending s n r hf he h => cases h _ hm hid
  | resolved s n r hf he resolution' now => exact r.not_isPending_resolved resolution' now

/-- A resolution that was answered by 200 is not answered so again. -/
theorem Kept.status_ne_ok {codec : Codec} {calls : List Entry} {w : Server} {L : Ledger}
    {count : Nat} (hc : codec.Canonical) (h : Kept codec calls w L count) {text text' : String}
    {v v' : Value} {response : Response}
    (hm : Mirrored codec calls (.resolveApproval text v) response) (h200 : response.status = 200)
    (hid : codec.readUuid (.str text') = codec.readUuid (.str text)) :
    (w.respond codec (.resolveApproval text' v')).1.status ≠ 200 := by
  have hans := (h.served_resolveApproval hc text' v').1
  intro hok
  rw [Answered] at hans
  split at hans
  · rename_i id body heq _
    obtain ⟨resolution, r', hr, hmem⟩ := hm id (hid ▸ heq) h200
    split at hans
    · obtain ⟨r, r₁, hs, hby, -⟩ := hans.result hok
      have hrec := (IndexedTable.find_eq_some_iff.mp
        ((h.represents.stored_iff hc.toLawful).mp hs)).1
      have ht := h.tells id
      rw [hrec] at ht
      exact ht.not_isPending hr hmem hby.pending
    · cases hans.1.symm.trans hok
  · cases hans.1.symm.trans hok

/-- The approval of a person. -/
def firstBody : Value := .obj [("action", .str "approve"), ("approver_identity", .str "alice")]

/-- The first request, approved by a person. -/
def firstPatch : HttpRequest := .resolveApproval firstId firstBody

private theorem firstApiRun : ApiRun isoCodec emptyServer [.enqueue submission (.ok firstRequest)]
    firstServer :=
  ApiRun.start.enqueue submission

end NhiSentinel.Approval
