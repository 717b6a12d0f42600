import NhiSentinel.Approval.Models
import NhiSentinel.Base.Program
import NhiSentinel.Base.Redis

/-!
# The approval queue

`ApprovalQueue` of `approval/queue.py` as programs over the Redis server, the clock and the
source of identifiers.
-/

namespace NhiSentinel.Approval
open NhiSentinel.Base

/-- The exceptions of the queue, and those of its libraries by class name. -/
inductive QueueExn where
  | notFound (message : String)
  | alreadyResolved (message : String)
  | selfApproval (message : String)
  | other (cls : String)
  deriving DecidableEq

/-- The calls that leave the queue. -/
inductive QueueCall where
  | redis (c : Redis.Command)
  | clock
  | uuid4

/-- What a call is answered. -/
@[reducible] def QueueCall.Reply : QueueCall → Type
  | redis c => Except String c.Reply
  | clock => Nat
  | uuid4 => String

/-- A method of the queue, which keeps no state of its own. -/
abbrev QueueMethod := Py Unit QueueExn QueueCall QueueCall.Reply

/-- Call the environment. -/
def ask (c : QueueCall) : QueueMethod c.Reply := Py.ask c

/-- A command to the server. -/
def redis (c : Redis.Command) : QueueMethod c.Reply :=
  ask (.redis c) >>= fun (reply : Except String c.Reply) ↦ Py.ofExcept (reply.mapError .other)

/-- `_PENDING_SET`, `queue.py:22`. -/
def pendingSet : String := "approval:pending"

/-- `_DEFAULT_TTL_SECONDS`, `queue.py:23`. -/
def defaultTtlSeconds : Int := 14400

/-- The key of a request, `_KEY_PREFIX` at `queue.py:21`. -/
def key (requestId : String) : String := "approval:" ++ requestId

/-- A validated record, or the library's exception. -/
def decode (codec : Codec) (raw : String) : QueueMethod ApprovalRequest :=
  match ApprovalRequest.validateJson? codec raw with
  | some request => pure request
  | none => Py.raise (.other "ValidationError")

/-- The JSON form of a record, or the library's exception. -/
def encode (codec : Codec) (request : ApprovalRequest) : QueueMethod String :=
  match request.dumpJson codec with
  | some json => pure json
  | none => Py.raise (.other "PydanticSerializationError")

/-- A date given in microseconds since 1970; no date lies outside the range of the library. -/
def date (micros : Int) : QueueMethod Nat :=
  if micros < Python.datetimeMin ∨ Python.datetimeMax < micros then
    Py.raise (.other "OverflowError")
  else pure micros.toNat

/-- `enqueue`, `queue.py:34`. -/
def enqueue (codec : Codec) (agentId action resourceArn taskId policyRef : String)
    (riskLevel : RiskLevel) (tokenJti : String) (context : Value := .obj [])
    (ttlSeconds : Int := defaultTtlSeconds) : QueueMethod ApprovalRequest := do
  let now : Nat ← ask .clock
  let requestId : String ← ask .uuid4
  let expiresAt : Nat ← date (now + ttlSeconds * 1000000)
  let request : ApprovalRequest := {
    requestId := requestId
    agentId := agentId
    action := action
    resourceArn := resourceArn
    taskId := taskId
    policyRef := policyRef
    riskLevel := riskLevel
    requestedAt := now
    expiresAt := expiresAt
    requestingTokenJti := tokenJti
    context := context
    status := .pending
    approverIdentity := none
    resolvedAt := none }
  let json ← encode codec request
  redis (.setex (key request.requestId) ttlSeconds json)
  let _ ← redis (.sadd pendingSet request.requestId)
  pure request

/-- The stored record of a request, if there is a non-empty one. -/
def fetch (requestId : String) : QueueMethod String := do
  let raw ← redis (.get (key requestId))
  match raw with
  | some json =>
    if json = "" then
      Py.raise (.notFound s!"Approval request {requestId} not found or expired")
    else pure json
  | none => Py.raise (.notFound s!"Approval request {requestId} not found or expired")

/-- `resolve`, `queue.py:78`. -/
def resolve (codec : Codec) (resolution : ApprovalResolution) : QueueMethod ApprovalRequest := do
  let raw ← fetch resolution.requestId
  let request ← decode codec raw
  if request.status ≠ .pending then
    Py.raise (.alreadyResolved
      s!"Request {resolution.requestId} is already ApprovalStatus.{request.status.text}")
  else if resolution.approverIdentity = request.agentId then
    Py.raise (.selfApproval s!"Agent {request.agentId} cannot approve its own requests")
  else do
    let now : Nat ← ask .clock
    let resolved := { request with
      status := if resolution.action = "approve" then .approved else .denied
      approverIdentity := some resolution.approverIdentity
      resolvedAt := some now }
    let json ← encode codec resolved
    redis (.setex (key resolution.requestId) 3600 json)
    let _ ← redis (.srem pendingSet resolution.requestId)
    pure resolved

/-- `get`, `queue.py:126`. -/
def get (codec : Codec) (requestId : String) : QueueMethod ApprovalRequest := do
  decode codec (← fetch requestId)

/-- The loop of `list_pending` over the pending identifiers. -/
def listFrom (codec : Codec) : List String → QueueMethod (List ApprovalRequest)
  | [] => pure []
  | rid :: rids => do
    let found ← Py.handle (do return some (← get codec rid)) fun
      | .notFound _ => do
        let _ ← redis (.srem pendingSet rid)
        pure none
      | e => Py.raise e
    let rest ← listFrom codec rids
    pure (found.toList ++ rest)

/-- `list_pending`, `queue.py:133`. -/
def listPending (codec : Codec) : QueueMethod (List ApprovalRequest) := do
  listFrom codec (← redis (.smembers pendingSet))

/-! ### What the methods write -/

section
variable {codec : Codec} {t : List (Sigma QueueCall.Reply)} {s s' : Unit} {c : Redis.Command}
  {reply : Except String c.Reply}

/-- A command is sent, and where it is answered the rest of the method runs on the answer. -/
theorem run_redis_bind {α : Type} {f : c.Reply → QueueMethod α} {out : Except QueueExn α}
    (h : Py.Run (redis c >>= f) s t out s') :
    (∃ a u, t = ⟨.redis c, .ok a⟩ :: u ∧ Py.Run (f a) s u out s') ∨
      ∃ cls, t = [⟨.redis c, .error cls⟩] := by
  rw [redis, ask, Py.run_ask_bind_bind] at h
  obtain ⟨r, u, rfl, h⟩ := h
  cases r with
  | ok a => exact .inl ⟨a, u, rfl, Py.run_ofExcept_ok_bind.mp h⟩
  | error cls =>
    obtain ⟨rfl, -⟩ := Py.run_ofExcept_error_bind.mp h
    exact .inr ⟨cls, rfl⟩

/-- A date is out of range, or the method goes on with it. -/
theorem run_date_bind {α : Type} {micros : Int} {f : Nat → QueueMethod α}
    {out : Except QueueExn α} (h : Py.Run (date micros >>= f) s t out s') :
    t = [] ∨ ∃ n, Py.Run (f n) s t out s' := by
  rw [date] at h
  split at h
  · exact .inl (Py.run_raise_bind.mp h).1
  · exact .inr ⟨_, Py.run_pure_bind.mp h⟩

/-- A record cannot be written, or the method goes on with its text. -/
theorem run_encode_bind {α : Type} {r : ApprovalRequest} {f : String → QueueMethod α}
    {out : Except QueueExn α} (h : Py.Run (encode codec r >>= f) s t out s') :
    t = [] ∨ ∃ json, Py.Run (f json) s t out s' := by
  rw [encode] at h
  split at h
  · exact .inr ⟨_, Py.run_pure_bind.mp h⟩
  · exact .inl (Py.run_raise_bind.mp h).1

/-- A record cannot be read, or the method goes on with it. -/
theorem run_decode_bind {α : Type} {raw : String} {f : ApprovalRequest → QueueMethod α}
    {out : Except QueueExn α} (h : Py.Run (decode codec raw >>= f) s t out s') :
    t = [] ∨ ∃ r, ApprovalRequest.validateJson? codec raw = some r ∧ Py.Run (f r) s t out s' := by
  rw [decode] at h
  split at h
  · next r hr => exact .inr ⟨r, hr, Py.run_pure_bind.mp h⟩
  · exact .inl (Py.run_raise_bind.mp h).1

/-- Both ends of the life of a record write it and then touch the pending set. -/
theorem key_of_write {k json : String} {seconds : Int} {d : Redis.Command} {r : ApprovalRequest}
    {out : Except QueueExn ApprovalRequest}
    (h : Py.Run (do redis (.setex k seconds json); let _ ← redis d; pure r) s t out s')
    (hd : d.rewrites = false) (hm : (⟨.redis c, reply⟩ : Sigma QueueCall.Reply) ∈ t)
    (hr : c.rewrites = true) : c.key = k := by
  rcases run_redis_bind h with ⟨_, u, rfl, h₁⟩ | ⟨cls, rfl⟩
  · rcases List.mem_cons.mp hm with hm | hm
    · cases hm
      rfl
    rcases run_redis_bind h₁ with ⟨_, v, rfl, h₂⟩ | ⟨cls, rfl⟩
    · obtain ⟨rfl, -⟩ := Py.run_pure.mp h₂
      cases List.mem_singleton.mp hm
      cases hd.symm.trans hr
    · cases List.mem_singleton.mp hm
      cases hd.symm.trans hr
  · cases List.mem_singleton.mp hm
    rfl

/-- An `enqueue` writes a record under the identifier that it is given. -/
theorem uuid4_of_enqueue {agentId action resourceArn taskId policyRef : String}
    {riskLevel : RiskLevel} {tokenJti : String} {context : Value} {ttlSeconds : Int}
    {out : Except QueueExn ApprovalRequest}
    (h : Py.Run (enqueue codec agentId action resourceArn taskId policyRef riskLevel tokenJti
      context ttlSeconds) s t out s') (hm : (⟨.redis c, reply⟩ : Sigma QueueCall.Reply) ∈ t)
    (hr : c.rewrites = true) :
    ∃ requestId, c.key = key requestId ∧ (⟨.uuid4, requestId⟩ : Sigma QueueCall.Reply) ∈ t := by
  rw [enqueue, ask, Py.run_ask_bind] at h
  obtain ⟨now, t, rfl, h⟩ := h
  rw [ask, Py.run_ask_bind] at h
  obtain ⟨requestId, t, rfl, h⟩ := h
  refine ⟨requestId, ?_, by simp⟩
  have hm : (⟨.redis c, reply⟩ : Sigma QueueCall.Reply) ∈ t := by simpa using hm
  rcases run_date_bind h with rfl | ⟨expiresAt, h⟩
  · cases hm
  rcases run_encode_bind h with rfl | ⟨json, h⟩
  · cases hm
  exact key_of_write h rfl hm hr

/-- A `resolve` writes the record that it is about, where it has read a pending one. -/
theorem get_of_resolve {resolution : ApprovalResolution} {out : Except QueueExn ApprovalRequest}
    (h : Py.Run (resolve codec resolution) s t out s')
    (hm : (⟨.redis c, reply⟩ : Sigma QueueCall.Reply) ∈ t) (hr : c.rewrites = true) :
    c.key = key resolution.requestId ∧ ∃ text r,
      (⟨.redis (.get (key resolution.requestId)), .ok (some text)⟩ : Sigma QueueCall.Reply) ∈ t ∧
        ApprovalRequest.validateJson? codec text = some r ∧ r.status = .pending := by
  rw [resolve, fetch, Py.bind_assoc] at h
  rcases run_redis_bind h with ⟨raw, u, rfl, h₁⟩ | ⟨cls, rfl⟩
  swap
  · cases List.mem_singleton.mp hm
    cases hr
  have hu : (⟨.redis c, reply⟩ : Sigma QueueCall.Reply) ∈ u := by
    rcases List.mem_cons.mp hm with hm | hm
    · cases hm
      cases hr
    · exact hm
  cases raw with
  | none =>
    obtain ⟨rfl, -⟩ := Py.run_raise_bind.mp h₁
    cases hu
  | some text =>
    dsimp only at h₁
    split at h₁
    · obtain ⟨rfl, -⟩ := Py.run_raise_bind.mp h₁
      cases hu
    rw [Py.run_pure_bind] at h₁
    rcases run_decode_bind h₁ with rfl | ⟨r, hv, h₂⟩
    · cases hu
    split at h₂
    · obtain ⟨rfl, -⟩ := Py.run_raise.mp h₂
      cases hu
    · next hp =>
      split at h₂
      · obtain ⟨rfl, -⟩ := Py.run_raise.mp h₂
        cases hu
      rw [ask, Py.run_ask_bind] at h₂
      obtain ⟨now, v, rfl, h₃⟩ := h₂
      have hv' : (⟨.redis c, reply⟩ : Sigma QueueCall.Reply) ∈ v := by simpa using hu
      rcases run_encode_bind h₃ with rfl | ⟨json, h₄⟩
      · cases hv'
      exact ⟨key_of_write h₄ rfl hv' hr, text, r, by simp, hv, not_not.mp hp⟩

end

/-! ### On a server -/

/-- A Redis server, the time, and the identifiers still to be given out. -/
structure Server where
  store : Redis.Store
  now : Nat
  ids : Nat → String

/-- The server executes commands at its time and hands out identifiers. -/
def Server.answer (w : Server) : (c : QueueCall) → c.Reply × Server
  | .redis c =>
    ((Redis.exec w.now c w.store).1.mapError fun _ ↦ "ResponseError",
      { w with store := (Redis.exec w.now c w.store).2 })
  | .clock => (w.now, w)
  | .uuid4 => (w.ids 0, { w with ids := fun n ↦ w.ids (n + 1) })

/-- The outcome of a method on a server, and the server afterwards. -/
def Server.call {α : Type} (w : Server) (m : QueueMethod α) : Except QueueExn α × Server :=
  match Py.serve Server.answer m () w with
  | (out, _, w') => (out, w')

/-- A sequence of methods is executed part by part, up to the first exception. -/
theorem Server.call_bind {α β : Type} (w : Server) (m : QueueMethod α) (f : α → QueueMethod β) :
    w.call (m >>= f) =
      match w.call m with
      | (.ok a, w') => w'.call (f a)
      | (.error e, w') => (.error e, w') := by
  rw [Server.call, Server.call, Py.serve_bind]
  rcases Py.serve Server.answer m () w with ⟨_ | _, _, _⟩ <;> rfl

/-- After a value the method goes on. -/
theorem Server.call_bind_ok {α β : Type} {w w' : Server} {m : QueueMethod α} {a : α}
    (h : w.call m = (.ok a, w')) (f : α → QueueMethod β) : w.call (m >>= f) = w'.call (f a) := by
  rw [Server.call_bind, h]

/-- After an exception it does not. -/
theorem Server.call_bind_error {α β : Type} {w w' : Server} {m : QueueMethod α} {e : QueueExn}
    (h : w.call m = (.error e, w')) (f : α → QueueMethod β) :
    w.call (m >>= f) = (.error e, w') := by
  rw [Server.call_bind, h]

/-- A guarded method: its value, or the handler on its exception. -/
theorem Server.call_handle {α : Type} (w : Server) (m : QueueMethod α)
    (h : QueueExn → QueueMethod α) :
    w.call (Py.handle m h) =
      match w.call m with
      | (.ok a, w') => (.ok a, w')
      | (.error e, w') => w'.call (h e) := by
  rw [Server.call, Server.call, Py.serve_handle]
  rcases Py.serve Server.answer m () w with ⟨_ | _, _, _⟩ <;> rfl

/-- A guarded method that returns does not reach its handler. -/
theorem Server.call_handle_ok {α : Type} {w w' : Server} {m : QueueMethod α} {a : α}
    (h : w.call m = (.ok a, w')) (handler : QueueExn → QueueMethod α) :
    w.call (Py.handle m handler) = (.ok a, w') := by
  rw [Server.call_handle, h]

/-- A guarded method that raises does. -/
theorem Server.call_handle_error {α : Type} {w w' : Server} {m : QueueMethod α} {e : QueueExn}
    (h : w.call m = (.error e, w')) (handler : QueueExn → QueueMethod α) :
    w.call (Py.handle m handler) = w'.call (handler e) := by
  rw [Server.call_handle, h]

/-- A command is executed by the server. -/
theorem Server.call_redis (w : Server) (c : Redis.Command) :
    w.call (redis c) =
      ((Redis.exec w.now c w.store).1.mapError fun _ ↦ .other "ResponseError",
        { w with store := (Redis.exec w.now c w.store).2 }) := by
  have ha : w.call (ask (.redis c)) = (.ok ((Redis.exec w.now c w.store).1.mapError fun _ ↦
      "ResponseError"), { w with store := (Redis.exec w.now c w.store).2 }) := rfl
  rw [redis, Server.call_bind, ha]
  cases (Redis.exec w.now c w.store).1 <;> rfl

end NhiSentinel.Approval
