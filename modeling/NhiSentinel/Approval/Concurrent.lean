import NhiSentinel.Approval.History
import NhiSentinel.Base.Interleave

/-!
# Control points of the queue

Where `enqueue` and `resolve` can stand between two calls, and how the answer to a call
moves them on. Calls of different clients interleave at these points.
-/

namespace NhiSentinel.Approval
open NhiSentinel.Base

/-- A program of the queue. -/
abbrev QueueProg := Prog QueueCall QueueCall.Reply (Except QueueExn ApprovalRequest × Unit)

/-- A call with its reply. -/
abbrev QueueEvent := Sigma QueueCall.Reply

/-- Where `resolve` stands: before its first call, with a request that it will resolve, with the
record that it is about to write, with the record written, or at its end. -/
inductive Resolving where
  | start
  | checked (r : ApprovalRequest)
  | writing (r : ApprovalRequest) (json : String)
  | written (r : ApprovalRequest)
  | ended (out : Except QueueExn ApprovalRequest)

namespace Resolving
variable {codec : Codec} {resolution : ApprovalResolution}

/-- What is left of `resolve`. -/
def method (codec : Codec) (resolution : ApprovalResolution) :
    Resolving → QueueMethod ApprovalRequest
  | start => resolve codec resolution
  | checked r => do
    let now : Nat ← ask .clock
    let resolved := r.resolved resolution now
    let json ← encode codec resolved
    redis (.setex (key resolution.requestId) 3600 json)
    let _ ← redis (.srem pendingSet resolution.requestId)
    pure resolved
  | writing r json => do
    redis (.setex (key resolution.requestId) 3600 json)
    let _ ← redis (.srem pendingSet resolution.requestId)
    pure r
  | written r => do
    let _ ← redis (.srem pendingSet resolution.requestId)
    pure r
  | ended out => Py.ofExcept out

/-- What is left of it as a program. -/
def program (codec : Codec) (resolution : ApprovalResolution) (φ : Resolving) : QueueProg :=
  φ.method codec resolution ()

/-- The request that a record holds can be resolved by the resolution. -/
structure Accepts (codec : Codec) (resolution : ApprovalResolution) (text : String)
    (r : ApprovalRequest) : Prop where
  nonempty : text ≠ ""
  decoded : ApprovalRequest.validateJson? codec text = some r
  pending : r.status = .pending
  approver : resolution.approverIdentity ≠ r.agentId

/-- How a call moves `resolve`. -/
inductive Moves (codec : Codec) (resolution : ApprovalResolution) :
    Resolving → QueueEvent → Resolving → Prop where
  | refused {reply : Except String (Option String)} (e : QueueExn)
      (h : ∀ text r, reply = .ok (some text) → ¬ Accepts codec resolution text r) :
      Moves codec resolution .start ⟨.redis (.get (key resolution.requestId)), reply⟩
        (.ended (.error e))
  | read {text : String} {r : ApprovalRequest} (h : Accepts codec resolution text r) :
      Moves codec resolution .start ⟨.redis (.get (key resolution.requestId)), .ok (some text)⟩
        (.checked r)
  | clock {r : ApprovalRequest} (now : Nat) {json : String}
      (hj : (r.resolved resolution now).dumpJson codec = some json) :
      Moves codec resolution (.checked r) ⟨.clock, now⟩ (.writing (r.resolved resolution now) json)
  | unwritable {r : ApprovalRequest} {now : Nat} (e : QueueExn)
      (hj : (r.resolved resolution now).dumpJson codec = none) :
      Moves codec resolution (.checked r) ⟨.clock, now⟩ (.ended (.error e))
  | write (r : ApprovalRequest) (json : String) :
      Moves codec resolution (.writing r json)
        ⟨.redis (.setex (key resolution.requestId) 3600 json), .ok ()⟩ (.written r)
  | writeFailed (r : ApprovalRequest) (json cls : String) (e : QueueExn) :
      Moves codec resolution (.writing r json)
        ⟨.redis (.setex (key resolution.requestId) 3600 json), .error cls⟩ (.ended (.error e))
  | remove (r : ApprovalRequest) (n : Nat) :
      Moves codec resolution (.written r)
        ⟨.redis (.srem pendingSet resolution.requestId), .ok n⟩ (.ended (.ok r))
  | removeFailed (r : ApprovalRequest) (cls : String) (e : QueueExn) :
      Moves codec resolution (.written r)
        ⟨.redis (.srem pendingSet resolution.requestId), .error cls⟩ (.ended (.error e))

/-- `resolve` from the decoded request on. -/
private def judge (codec : Codec) (resolution : ApprovalResolution) (request : ApprovalRequest) :
    QueueMethod ApprovalRequest :=
  if request.status ≠ .pending then
    Py.raise (.alreadyResolved
      s!"Request {resolution.requestId} is already ApprovalStatus.{request.status.text}")
  else if resolution.approverIdentity = request.agentId then
    Py.raise (.selfApproval s!"Agent {request.agentId} cannot approve its own requests")
  else (checked request).method codec resolution

/-- A record that the resolution can resolve is read. -/
theorem judge_of_accepts {text : String} {r : ApprovalRequest}
    (h : Accepts codec resolution text r) :
    (decode codec text >>= judge codec resolution) () = (checked r).program codec resolution := by
  have hd : decode codec text = pure r := by simp only [decode, h.decoded]
  have hj : judge codec resolution r = (checked r).method codec resolution := by
    rw [judge, if_neg (not_not_intro h.pending), if_neg h.approver]
  rw [hd]
  exact congrFun hj ()

/-- Any other is refused. -/
theorem judge_of_not_accepts {text : String} (hn : text ≠ "")
    (h : ∀ r, ¬ Accepts codec resolution text r) : ∃ e,
      (decode codec text >>= judge codec resolution) () =
        (ended (.error e)).program codec resolution := by
  cases hv : ApprovalRequest.validateJson? codec text with
  | none =>
    have hd : decode codec text = Py.raise (.other "ValidationError") := by simp only [decode, hv]
    rw [hd]
    exact ⟨_, rfl⟩
  | some r =>
    have hd : decode codec text = pure r := by simp only [decode, hv]
    rw [hd]
    show ∃ e, judge codec resolution r () = _
    rw [judge]
    by_cases hp : r.status = .pending
    · by_cases hs : resolution.approverIdentity = r.agentId
      · rw [if_neg (not_not_intro hp), if_pos hs]
        exact ⟨_, rfl⟩
      · exact absurd ⟨hn, hv, hp, hs⟩ (h r)
    · rw [if_pos hp]
      exact ⟨_, rfl⟩

/-- The calls of `resolve` in their order. -/
theorem step {φ : Resolving} {c : QueueCall} {k : c.Reply → QueueProg}
    (h : φ.program codec resolution = .call c k) (reply : c.Reply) :
    ∃ φ', k reply = φ'.program codec resolution ∧ Moves codec resolution φ ⟨c, reply⟩ φ' := by
  cases φ with
  | start =>
    cases h
    rcases reply with cls | _ | text
    · exact ⟨.ended (.error (.other cls)), rfl, .refused _ nofun⟩
    · exact ⟨.ended (.error (.notFound _)), rfl, .refused _ nofun⟩
    · by_cases hn : text = ""
      · subst hn
        refine ⟨.ended (.error (.notFound _)), rfl, .refused _ ?_⟩
        rintro text r ⟨⟩ h
        exact h.nonempty rfl
      have hf : (if text = "" then Py.raise (.notFound
          s!"Approval request {resolution.requestId} not found or expired") else pure text :
            QueueMethod String) = pure text := if_neg hn
      by_cases ha : ∃ r, Accepts codec resolution text r
      · obtain ⟨r, ha⟩ := ha
        refine ⟨.checked r, ?_, .read ha⟩
        rw [← judge_of_accepts ha]
        exact congrArg (fun m : QueueMethod String ↦
          (m >>= fun raw ↦ decode codec raw >>= judge codec resolution) ()) hf
      · obtain ⟨e, he⟩ := judge_of_not_accepts hn (fun r hr ↦ ha ⟨r, hr⟩)
        refine ⟨.ended (.error e), ?_, .refused e ?_⟩
        swap
        · rintro text r ⟨⟩ h
          exact ha ⟨r, h⟩
        rw [← he]
        exact congrArg (fun m : QueueMethod String ↦
          (m >>= fun raw ↦ decode codec raw >>= judge codec resolution) ()) hf
  | checked r =>
    cases h
    cases hj : (r.resolved resolution reply).dumpJson codec with
    | none =>
      have he : encode codec (r.resolved resolution reply) =
          Py.raise (.other "PydanticSerializationError") := by simp only [encode, hj]
      refine ⟨.ended (.error (.other "PydanticSerializationError")), ?_, .unwritable _ hj⟩
      exact congrArg (fun m : QueueMethod String ↦ (m >>= fun json ↦
        (writing (r.resolved resolution reply) json).method codec resolution) ()) he
    | some json =>
      have he : encode codec (r.resolved resolution reply) = pure json := by
        simp only [encode, hj]
      refine ⟨.writing (r.resolved resolution reply) json, ?_, .clock reply hj⟩
      exact congrArg (fun m : QueueMethod String ↦ (m >>= fun json ↦
        (writing (r.resolved resolution reply) json).method codec resolution) ()) he
  | writing r json =>
    cases h
    cases reply with
    | ok u => exact ⟨.written r, rfl, .write r json⟩
    | error cls => exact ⟨.ended (.error (.other cls)), rfl, .writeFailed r json cls _⟩
  | written r =>
    cases h
    cases reply with
    | ok n => exact ⟨.ended (.ok r), rfl, .remove r n⟩
    | error cls => exact ⟨.ended (.error (.other cls)), rfl, .removeFailed r cls _⟩
  | ended out => cases out <;> cases h

/-- A move that does not end in an exception is made by the call that it names. -/
theorem Moves.call {φ φ' : Resolving} {e : QueueEvent} (h : Moves codec resolution φ e φ')
    (hφ : ∀ x, φ' ≠ .ended (.error x)) : ∃ k : e.1.Reply → QueueProg,
      φ.program codec resolution = .call e.1 k ∧ k e.2 = φ'.program codec resolution := by
  cases h with
  | refused e | unwritable e | writeFailed r json cls e | removeFailed r cls e =>
    exact absurd rfl (hφ e)
  | read ha =>
    refine ⟨_, rfl, ?_⟩
    obtain ⟨φ', hk, hm⟩ := step (φ := .start) rfl
      (.ok (some _))
    cases hm with
    | refused e hn => exact absurd ha (hn _ _ rfl)
    | read ha' =>
      cases ha.decoded.symm.trans ha'.decoded
      exact hk
  | clock now hj =>
    refine ⟨_, rfl, ?_⟩
    obtain ⟨φ', hk, hm⟩ := step (φ := .checked _) rfl
      now
    cases hm with
    | clock now hj' =>
      cases hj.symm.trans hj'
      exact hk
    | unwritable e hn => cases hj.symm.trans hn
  | write r json => exact ⟨_, rfl, rfl⟩
  | remove r n => exact ⟨_, rfl, rfl⟩

end Resolving

/-- Where `enqueue` stands: before its first call, with its first reading of the clock, with the
record that it is about to write, with the record written, or at its end. -/
inductive Enqueuing where
  | start
  | clocked (now : Nat)
  | writing (r : ApprovalRequest) (json : String)
  | written (r : ApprovalRequest)
  | ended (out : Except QueueExn ApprovalRequest)

/-- The request would expire within the range of dates. -/
def Submission.InRange (s : Submission) (now : Nat) : Prop :=
  Python.datetimeMin ≤ now + s.ttlSeconds * 1000000 ∧
    now + s.ttlSeconds * 1000000 ≤ Python.datetimeMax

namespace Enqueuing
variable {codec : Codec} {s : Submission}

/-- What is left of `enqueue`. -/
def method (codec : Codec) (s : Submission) : Enqueuing → QueueMethod ApprovalRequest
  | start => s.enqueue codec
  | clocked now => do
    let requestId : String ← ask .uuid4
    let expiresAt : Nat ← date (now + s.ttlSeconds * 1000000)
    let request := { s.request requestId now with expiresAt := expiresAt }
    let json ← encode codec request
    redis (.setex (key request.requestId) s.ttlSeconds json)
    let _ ← redis (.sadd pendingSet request.requestId)
    pure request
  | writing r json => do
    redis (.setex (key r.requestId) s.ttlSeconds json)
    let _ ← redis (.sadd pendingSet r.requestId)
    pure r
  | written r => do
    let _ ← redis (.sadd pendingSet r.requestId)
    pure r
  | ended out => Py.ofExcept out

/-- What is left of it as a program. -/
def program (codec : Codec) (s : Submission) (φ : Enqueuing) : QueueProg := φ.method codec s ()

/-- How a call moves `enqueue`. -/
inductive Moves (codec : Codec) (s : Submission) : Enqueuing → QueueEvent → Enqueuing → Prop where
  | clock (now : Nat) : Moves codec s .start ⟨.clock, now⟩ (.clocked now)
  | uuid {now : Nat} {requestId json : String} (hx : s.InRange now)
      (hj : (s.request requestId now).dumpJson codec = some json) :
      Moves codec s (.clocked now) ⟨.uuid4, requestId⟩ (.writing (s.request requestId now) json)
  | refused {now : Nat} {requestId : String} (e : QueueExn)
      (h : ¬ s.InRange now ∨ (s.request requestId now).dumpJson codec = none) :
      Moves codec s (.clocked now) ⟨.uuid4, requestId⟩ (.ended (.error e))
  | write (r : ApprovalRequest) (json : String) :
      Moves codec s (.writing r json)
        ⟨.redis (.setex (key r.requestId) s.ttlSeconds json), .ok ()⟩ (.written r)
  | writeFailed (r : ApprovalRequest) (json cls : String) (e : QueueExn) :
      Moves codec s (.writing r json)
        ⟨.redis (.setex (key r.requestId) s.ttlSeconds json), .error cls⟩ (.ended (.error e))
  | add (r : ApprovalRequest) (n : Nat) :
      Moves codec s (.written r) ⟨.redis (.sadd pendingSet r.requestId), .ok n⟩ (.ended (.ok r))
  | addFailed (r : ApprovalRequest) (cls : String) (e : QueueExn) :
      Moves codec s (.written r) ⟨.redis (.sadd pendingSet r.requestId), .error cls⟩
        (.ended (.error e))

/-- The calls of `enqueue` in their order. -/
theorem step {φ : Enqueuing} {c : QueueCall} {k : c.Reply → QueueProg}
    (h : φ.program codec s = .call c k) (reply : c.Reply) :
    ∃ φ', k reply = φ'.program codec s ∧ Moves codec s φ ⟨c, reply⟩ φ' := by
  cases φ with
  | start =>
    cases h
    exact ⟨.clocked reply, rfl, .clock reply⟩
  | clocked now =>
    cases h
    -- the rest of the method after the date
    let rest (expiresAt : Nat) : QueueMethod ApprovalRequest := do
      let request := { s.request reply now with expiresAt := expiresAt }
      let json ← encode codec request
      (writing request json).method codec s
    by_cases hx : s.InRange now
    · have hd : date (now + s.ttlSeconds * 1000000) =
          pure (now + s.ttlSeconds * 1000000).toNat :=
        if_neg (not_or.mpr ⟨Int.not_lt.mpr hx.1, Int.not_lt.mpr hx.2⟩)
      have hrest := congrArg (fun m : QueueMethod Nat ↦ (m >>= rest) ()) hd
      cases hj : (s.request reply now).dumpJson codec with
      | none =>
        have he : encode codec (s.request reply now) =
            Py.raise (.other "PydanticSerializationError") := by simp only [encode, hj]
        refine ⟨.ended (.error (.other "PydanticSerializationError")), ?_, .refused _ (.inr hj)⟩
        exact hrest.trans (congrArg (fun m : QueueMethod String ↦ (m >>= fun json ↦
          (writing (s.request reply now) json).method codec s) ()) he)
      | some json =>
        have he : encode codec (s.request reply now) = pure json := by simp only [encode, hj]
        refine ⟨.writing (s.request reply now) json, ?_, .uuid hx hj⟩
        exact hrest.trans (congrArg (fun m : QueueMethod String ↦ (m >>= fun json ↦
          (writing (s.request reply now) json).method codec s) ()) he)
    · have hd : date (now + s.ttlSeconds * 1000000) = Py.raise (.other "OverflowError") := by
        rw [Submission.InRange, not_and_or, Int.not_le, Int.not_le] at hx
        exact if_pos hx
      refine ⟨.ended (.error (.other "OverflowError")), ?_, .refused _ (.inl hx)⟩
      exact congrArg (fun m : QueueMethod Nat ↦ (m >>= rest) ()) hd
  | writing r json =>
    cases h
    cases reply with
    | ok u => exact ⟨.written r, rfl, .write r json⟩
    | error cls => exact ⟨.ended (.error (.other cls)), rfl, .writeFailed r json cls _⟩
  | written r =>
    cases h
    cases reply with
    | ok n => exact ⟨.ended (.ok r), rfl, .add r n⟩
    | error cls => exact ⟨.ended (.error (.other cls)), rfl, .addFailed r cls _⟩
  | ended out => cases out <;> cases h

/-- A move that does not end in an exception is made by the call that it names. -/
theorem Moves.call {φ φ' : Enqueuing} {e : QueueEvent} (h : Moves codec s φ e φ')
    (hφ : ∀ x, φ' ≠ .ended (.error x)) : ∃ k : e.1.Reply → QueueProg,
      φ.program codec s = .call e.1 k ∧ k e.2 = φ'.program codec s := by
  cases h with
  | refused e | writeFailed r json cls e | addFailed r cls e => exact absurd rfl (hφ e)
  | clock now => exact ⟨_, rfl, rfl⟩
  | @uuid now requestId json hx hj =>
    refine ⟨_, rfl, ?_⟩
    obtain ⟨φ', hk, hm⟩ := step (s := s) (φ := .clocked now) rfl requestId
    cases hm with
    | uuid hx' hj' =>
      cases hj.symm.trans hj'
      exact hk
    | refused e hn =>
      rcases hn with hn | hn
      · exact absurd hx hn
      · cases hj.symm.trans hn
  | write r json => exact ⟨_, rfl, rfl⟩
  | add r n => exact ⟨_, rfl, rfl⟩

end Enqueuing

/-! ### One server -/

section
variable {w w' : Server} {id text json : String}

/-- A stored request is read. -/
theorem answer_get {expires : Option Nat}
    (hl : w.store.live w.now (key id) = some ⟨.text text, expires⟩) :
    w.answer (.redis (.get (key id))) = (.ok (some text), w) := by
  have hg : Redis.get w.store w.now (key id) = .ok (some text) := by rw [Redis.get, hl]
  rw [Server.answer, Redis.exec, hg]
  rfl

/-- What is read is stored. -/
theorem live_of_answer_get (ha : w.answer (.redis (.get (key id))) = (.ok (some text), w')) :
    w' = w ∧ ∃ expires, w.store.live w.now (key id) = some ⟨.text text, expires⟩ := by
  obtain ⟨hr, rfl⟩ := Prod.mk.inj ha
  refine ⟨rfl, Redis.live_of_get ?_⟩
  revert hr
  show Except.mapError _ (Redis.get w.store w.now (key id)) = _ → _
  cases Redis.get w.store w.now (key id) with
  | error x => exact nofun
  | ok s => exact fun hs ↦ congrArg Except.ok (Except.ok.inj hs)

/-- A record is written. -/
theorem answer_setex {seconds : Int} (hs : 0 < seconds) :
    w.answer (.redis (.setex (key id) seconds json)) =
      (.ok (), { w with store := (Redis.setex w.store w.now (key id) seconds json).2 }) := by
  have hok : (Redis.setex w.store w.now (key id) seconds json).1 = .ok () := by
    rw [Redis.setex, if_pos hs]
  rw [Server.answer, Redis.exec, hok]
  rfl

/-- A record without a lifetime is refused. -/
theorem answer_setex_refused (w : Server) (id json : String) {seconds : Int} (hs : ¬ 0 < seconds) :
    ∃ cls, w.answer (.redis (.setex (key id) seconds json)) = (.error cls, w) := by
  have hno : Redis.setex w.store w.now (key id) seconds json =
      (.error .invalidExpireTime, w.store) := by
    rw [Redis.setex, if_neg hs]
  rw [Server.answer, Redis.exec, hno]
  exact ⟨_, rfl⟩

end

/-- Clients on one server: each call is executed on it, and time passes between the calls. -/
def concurrent (ι : Type) : World ι QueueCall QueueCall.Reply Server where
  answer w _ c r w' := w.answer c = (r, w')
  background w w' := ∃ now, w.now ≤ now ∧ now ≤ Python.datetimeMax ∧ w' = { w with now := now }

/-- A move of one client in an interleaving; the others stay where they are. -/
theorem exists_move {ι : Type} [DecidableEq ι] {codec : Codec} {resolution : ApprovalResolution}
    {p₀ p : ι → QueueProg} {w₀ w w' : Server} {t : List (ι × QueueEvent)}
    (h : Reach (concurrent ι) p₀ w₀ t p w) {i : ι} {φ φ' : Resolving} {e : QueueEvent}
    (hp : p i = φ.program codec resolution) (hm : Resolving.Moves codec resolution φ e φ')
    (hφ : ∀ x, φ' ≠ .ended (.error x)) (ha : w.answer e.1 = (e.2, w')) :
    ∃ p', Reach (concurrent ι) p₀ w₀ (t ++ [(i, e)]) p' w' ∧
      p' i = φ'.program codec resolution ∧ ∀ j, j ≠ i → p' j = p j := by
  have hk := hm.call hφ
  rw [← hp] at hk
  exact h.exists_call hk ha

/-- Resolutions by any number of clients. -/
def resolving {ι : Type} (codec : Codec) (resolution : ι → ApprovalResolution) :
    Reach.Control ι QueueCall QueueCall.Reply (Except QueueExn ApprovalRequest × Unit) where
  Point _ := Resolving
  start _ := .start
  program i := Resolving.program codec (resolution i)
  Moves i := Resolving.Moves codec (resolution i)
  step _ _ _ _ := Resolving.step

end NhiSentinel.Approval
