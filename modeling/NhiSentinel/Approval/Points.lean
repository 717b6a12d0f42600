import NhiSentinel.Approval.Concurrent

/-!
# Control points of every call

Where `list_pending` can stand between two calls, and with it where any call of the queue can.
-/

namespace NhiSentinel.Approval
open NhiSentinel.Base

/-! ### Control points -/

/-- Where `list_pending` stands: before its first call, before the next identifier, with one that
it is about to take from the pending set, or at its end. -/
inductive Listing where
  | start
  | reading (found : List ApprovalRequest) (id : String) (ids : List String)
  | removing (found : List ApprovalRequest) (id : String) (ids : List String)
  | ended (out : Except QueueExn (List ApprovalRequest))

namespace Listing

/-- Before the first of the identifiers that are left. -/
def next (found : List ApprovalRequest) : List String → Listing
  | [] => ended (.ok found)
  | id :: ids => reading found id ids

/-- The loop, with what it has found so far. -/
def loop (codec : Codec) (found : List ApprovalRequest) (ids : List String) :
    QueueMethod (List ApprovalRequest) := do
  let rest ← listFrom codec ids
  pure (found ++ rest)

/-- What is left of `list_pending`. -/
def method (codec : Codec) : Listing → QueueMethod (List ApprovalRequest)
  | start => listPending codec
  | reading found id ids => loop codec found (id :: ids)
  | removing found id ids => do
    let _ ← redis (.srem pendingSet id)
    loop codec found ids
  | ended out => Py.ofExcept out

/-- What is left of it as a program. -/
def program (codec : Codec) (φ : Listing) :
    Prog QueueCall QueueCall.Reply (Except QueueExn (List ApprovalRequest) × Unit) :=
  φ.method codec ()

/-- How a call moves `list_pending`. -/
inductive Moves (codec : Codec) : Listing → QueueEvent → Listing → Prop where
  | members (ids : List String) :
      Moves codec .start ⟨.redis (.smembers pendingSet), .ok ids⟩ (next [] ids)
  | membersFailed (cls : String) :
      Moves codec .start ⟨.redis (.smembers pendingSet), .error cls⟩ (.ended (.error (.other cls)))
  | found {found : List ApprovalRequest} {id text : String} {ids : List String}
      {r : ApprovalRequest} (h : ApprovalRequest.validateJson? codec text = some r) :
      Moves codec (.reading found id ids) ⟨.redis (.get (key id)), .ok (some text)⟩
        (next (found ++ [r]) ids)
  | missing {found : List ApprovalRequest} {id : String} {ids : List String}
      {raw : Option String} (h : raw.getD "" = "") :
      Moves codec (.reading found id ids) ⟨.redis (.get (key id)), .ok raw⟩
        (.removing found id ids)
  | unreadable {found : List ApprovalRequest} {id : String} {ids : List String}
      {reply : Except String (Option String)} (e : QueueExn)
      (h : ∀ raw, reply = .ok raw → ∃ text, raw = some text ∧
        ApprovalRequest.validateJson? codec text = none) :
      Moves codec (.reading found id ids) ⟨.redis (.get (key id)), reply⟩ (.ended (.error e))
  | remove {found : List ApprovalRequest} {id : String} {ids : List String} (n : Nat) :
      Moves codec (.removing found id ids) ⟨.redis (.srem pendingSet id), .ok n⟩ (next found ids)
  | removeFailed {found : List ApprovalRequest} {id : String} {ids : List String} (cls : String) :
      Moves codec (.removing found id ids) ⟨.redis (.srem pendingSet id), .error cls⟩
        (.ended (.error (.other cls)))

variable {codec : Codec}

private theorem program_next (found : List ApprovalRequest) (ids : List String) :
    (next found ids).program codec = loop codec found ids () := by
  cases ids with
  | nil =>
    show (pure found : QueueMethod (List ApprovalRequest)) () =
      (pure (found ++ []) : QueueMethod (List ApprovalRequest)) ()
    rw [List.append_nil]
  | cons id ids => rfl

/-- The loop over the members of the set. -/
theorem listFrom_eq (ids : List String) : listFrom codec ids () = (next [] ids).program codec := by
  rw [program_next]
  show listFrom codec ids () = (listFrom codec ids >>= fun rest ↦ pure rest) ()
  rw [Py.bind_pure]

private theorem loop_append (found : List ApprovalRequest) (r : Option ApprovalRequest)
    (ids : List String) :
    ((listFrom codec ids >>= fun rest ↦ pure (r.toList ++ rest)) >>= fun rest ↦
      (pure (found ++ rest) : QueueMethod (List ApprovalRequest))) =
        loop codec (found ++ r.toList) ids := by
  rw [Py.bind_assoc]
  simp only [Py.pure_bind, loop, List.append_assoc]

/-- A guarded reading of one identifier, which is taken from the pending set if it is not there. -/
private def guardedRead (id : String) (m : QueueMethod ApprovalRequest) :
    QueueMethod (Option ApprovalRequest) :=
  Py.handle (do return some (← m)) fun
    | .notFound _ => do
      let _ ← redis (.srem pendingSet id)
      pure none
    | e => Py.raise e

/-- The loop from a reading of an identifier on. -/
private def readThen (codec : Codec) (found : List ApprovalRequest) (id : String)
    (ids : List String) (m : QueueMethod ApprovalRequest) : QueueMethod (List ApprovalRequest) :=
  guardedRead id m >>= fun r ↦ loop codec (found ++ r.toList) ids

private theorem loop_cons (found : List ApprovalRequest) (id : String) (ids : List String) :
    loop codec found (id :: ids) = readThen codec found id ids (get codec id) := by
  show ((guardedRead id (get codec id) >>= fun r ↦ listFrom codec ids >>= fun rest ↦
    pure (r.toList ++ rest)) >>= fun rest ↦ pure (found ++ rest)) = _
  rw [Py.bind_assoc]
  simp only [loop_append, readThen]

private theorem readThen_notFound (found : List ApprovalRequest) (id message : String)
    (ids : List String) : readThen codec found id ids (Py.raise (.notFound message)) () =
      (removing found id ids).program codec := by
  show ((redis (.srem pendingSet id) >>= fun _ ↦ pure none) >>= fun r : Option ApprovalRequest ↦
    loop codec (found ++ r.toList) ids) () = _
  rw [Py.bind_assoc]
  simp only [Py.pure_bind, Option.toList_none, List.append_nil]
  rfl

private theorem readThen_pure (found : List ApprovalRequest) (id : String) (ids : List String)
    (r : ApprovalRequest) :
    readThen codec found id ids (pure r) () = (next (found ++ [r]) ids).program codec :=
  (program_next ..).symm

/-- The calls of `list_pending` in their order. -/
theorem step {φ : Listing} {c : QueueCall}
    {k : c.Reply → Prog QueueCall QueueCall.Reply (Except QueueExn (List ApprovalRequest) × Unit)}
    (h : φ.program codec = .call c k) (reply : c.Reply) :
    ∃ φ', k reply = φ'.program codec ∧ Moves codec φ ⟨c, reply⟩ φ' := by
  cases φ with
  | start =>
    cases h
    cases reply with
    | error cls => exact ⟨.ended (.error (.other cls)), rfl, .membersFailed cls⟩
    | ok ids =>
      exact ⟨next [] ids, listFrom_eq ids, .members ids⟩
  | reading found id ids =>
    rw [program, method, loop_cons] at h
    cases h
    rcases reply with cls | _ | text
    · exact ⟨.ended (.error (.other cls)), rfl, .unreadable _ nofun⟩
    · exact ⟨.removing found id ids, readThen_notFound found id
        s!"Approval request {id} not found or expired" ids, .missing rfl⟩
    by_cases hn : text = ""
    · subst hn
      exact ⟨.removing found id ids, readThen_notFound found id
        s!"Approval request {id} not found or expired" ids, .missing rfl⟩
    have hf : (if text = "" then Py.raise (.notFound
        s!"Approval request {id} not found or expired") else pure text : QueueMethod String) =
          pure text := if_neg hn
    have hk := congrArg (fun m : QueueMethod String ↦
      readThen codec found id ids (m >>= decode codec) ()) hf
    cases hv : ApprovalRequest.validateJson? codec text with
    | some r =>
      have hd : decode codec text = pure r := by simp only [decode, hv]
      refine ⟨next (found ++ [r]) ids, ?_, .found hv⟩
      rw [← readThen_pure, ← hd]
      exact hk
    | none =>
      have hd : decode codec text = Py.raise (.other "ValidationError") := by
        simp only [decode, hv]
      refine ⟨.ended (.error (.other "ValidationError")), ?_, .unreadable _ ?_⟩
      · exact hk.trans (congrArg (fun m ↦ readThen codec found id ids m ()) hd)
      · rintro raw ⟨⟩
        exact ⟨text, rfl, hv⟩
  | removing found id ids =>
    cases h
    cases reply with
    | error cls => exact ⟨.ended (.error (.other cls)), rfl, .removeFailed cls⟩
    | ok n => exact ⟨next found ids, (program_next found ids).symm, .remove n⟩
  | ended out => cases out <;> cases h

end Listing

/-- Where `get` stands: before its call or at its end. -/
inductive Getting where
  | start
  | ended (out : Except QueueExn ApprovalRequest)

/-- Where a call stands. -/
def Call.Point : Call → Type
  | enqueue _ => Enqueuing
  | resolve _ => Resolving
  | get _ => Getting
  | listPending => Listing

/-- Before the first call. -/
def Call.start : (c : Call) → c.Point
  | enqueue _ => Enqueuing.start
  | resolve _ => Resolving.start
  | get _ => Getting.start
  | listPending => Listing.start

/-- What is left of a call. -/
def Call.program (codec : Codec) :
    (c : Call) → c.Point → Prog QueueCall QueueCall.Reply (Except QueueExn c.Result × Unit)
  | enqueue s, φ => Enqueuing.program codec s φ
  | resolve resolution, φ => Resolving.program codec resolution φ
  | get requestId, .start => Approval.get codec requestId ()
  | get _, .ended out => .done (out, ())
  | listPending, φ => Listing.program codec φ

/-- How a call moves on. A reading changes nothing, whatever it is answered. -/
def Call.Moves (codec : Codec) : (c : Call) → c.Point → QueueEvent → c.Point → Prop
  | enqueue s => Enqueuing.Moves codec s
  | resolve resolution => Resolving.Moves codec resolution
  | get requestId => fun φ e φ' ↦ φ = .start ∧ e.1 = .redis (.get (key requestId)) ∧
      ∃ out, φ' = .ended out
  | listPending => Listing.Moves codec

/-- The calls of a call in their order. -/
theorem Call.step {codec : Codec} {c : Call} {φ : c.Point} {q : QueueCall}
    {k : q.Reply → Prog QueueCall QueueCall.Reply (Except QueueExn c.Result × Unit)}
    (h : c.program codec φ = .call q k) (reply : q.Reply) :
    ∃ φ', k reply = c.program codec φ' ∧ c.Moves codec φ ⟨q, reply⟩ φ' := by
  cases c with
  | enqueue s => exact Enqueuing.step h reply
  | resolve resolution => exact Resolving.step h reply
  | listPending => exact Listing.step h reply
  | get requestId =>
    cases φ with
    | ended out => cases h
    | start =>
      cases h
      rcases reply with cls | _ | text
      · exact ⟨.ended (.error (.other cls)), rfl, rfl, rfl, _, rfl⟩
      · exact ⟨.ended (.error (.notFound _)), rfl, rfl, rfl, _, rfl⟩
      · have hd : ∃ out, decode codec text () = .done (out, ()) := by
          cases hv : ApprovalRequest.validateJson? codec text <;> exact ⟨_, by rw [decode, hv]; rfl⟩
        by_cases hn : text = ""
        · subst hn
          exact ⟨.ended (.error (.notFound _)), rfl, rfl, rfl, _, rfl⟩
        · obtain ⟨out, hout⟩ := hd
          have hf : (if text = "" then Py.raise (.notFound
              s!"Approval request {requestId} not found or expired") else pure text :
                QueueMethod String) = pure text := if_neg hn
          refine ⟨.ended out, ?_, rfl, rfl, _, rfl⟩
          exact (congrArg (fun m : QueueMethod String ↦ (m >>= decode codec) ()) hf).trans hout

end NhiSentinel.Approval
