import Mathlib.Data.List.Forall2
import NhiSentinel.Base.Lockstep
import NhiSentinel.Pep.CedarEvaluator
import NhiSentinel.Pep.Outcome

/-!
# Where the context of a request goes

Two requests that differ in texts within their contexts are enforced alike: every call
is the same, but for the input of the policy engine and the request to the resource policy,
which hold the context as it is.
-/

namespace NhiSentinel.Pep
open NhiSentinel.Base

/-! ### Contexts -/

/-- The same value, or a text in place of a text. -/
inductive TextFor : Value → Value → Prop where
  | same (v : Value) : TextFor v v
  | text (x y : String) : TextFor (.str x) (.str y)

/-- The same keys in the same order, with a text in place of each text. -/
def Retexted : List (String × Value) → List (String × Value) → Prop :=
  List.Forall₂ fun m m' ↦ m.1 = m'.1 ∧ TextFor m.2 m'.2

/-- A context is one with its own texts. -/
theorem Retexted.refl (context : List (String × Value)) : Retexted context context :=
  List.forall₂_same.mpr fun m _ ↦ ⟨rfl, .same m.2⟩

/-- Assignments of the same key keep contexts retexted. -/
theorem Retexted.setMember {context context' : List (String × Value)} {v v' : Value}
    (h : Retexted context context') (key : String) (hv : TextFor v v') :
    Retexted (Value.setMember context key v) (Value.setMember context' key v') := by
  induction h with
  | nil => exact .cons ⟨rfl, hv⟩ .nil
  | @cons m m' _ _ hm hr ih =>
    obtain ⟨k, w⟩ := m
    obtain ⟨k', w'⟩ := m'
    obtain ⟨rfl, hw⟩ := hm
    rw [Value.setMember, Value.setMember]
    split
    · exact .cons ⟨rfl, hv⟩ hr
    · exact .cons ⟨rfl, hw⟩ ih

/-- A text in place of a text can be written as JSON all the same. -/
theorem Retexted.isJson {context context' : List (String × Value)}
    (h : Retexted context context') :
    Value.isJsonMembers context' = Value.isJsonMembers context := by
  induction h with
  | nil => rfl
  | @cons m m' _ _ hm _ ih =>
    obtain ⟨k, w⟩ := m
    obtain ⟨k', w'⟩ := m'
    obtain ⟨-, ⟨v⟩ | ⟨x, y⟩⟩ := hm
    all_goals
      simp only [Value.isJsonMembers, Value.isJson, ih]

/-! ### Enforcement -/

/-- The same enforcement point and the same request, but for texts in its context. -/
inductive Twin : State → State → Prop where
  | mk (pep : PolicyEnforcementPoint) (request : ActionRequest) (context : List (String × Value))
      (h : Retexted request.context context) :
      Twin ⟨pep, request⟩ ⟨pep, { request with context := context }⟩

/-- The call holds the context of a request. -/
def Call.HoldsContext (c : Call) : Prop := c.stage ∈ [Stage.policy, .resource]

/-- From twins, the methods make the same calls but for those that hold the context. -/
abbrev ActAlike {α : Type} (m m' : Method α) : Prop := Py.Lockstep Call.HoldsContext Twin m m'

section
variable {α : Type}

private theorem actAlike_service (c : Call) (h : c.Reply = Except String α) :
    ActAlike (service c h) (service c h) := by
  refine .bind (.ask c) fun reply ↦ ?_
  exact .ofExcept _

/-- The call that holds a context, before anything else. -/
theorem actAlike_cedar (request request' : CedarRequest) :
    ActAlike (cedar request) (cedar request') := by
  refine .of_apart ?_ ?_
  all_goals simp [Call.HoldsContext, Call.stage]

variable {rt : Runtime}

private theorem actAlike_checkIpBinding : ActAlike (checkIpBinding rt) (checkIpBinding rt) := by
  refine .read_bind ?_
  rintro _ _ ⟨pep, request, context, -⟩
  refine .bind (.ofExcept _) fun ip ↦ ?_
  exact .ite (.raise _) (.pure ())

private theorem actAlike_getRedis : ActAlike getRedis getRedis := by
  refine .read_bind ?_
  rintro _ _ ⟨pep, request, context, -⟩
  refine .ite (.pure true) (.bind (.ask _) fun reply ↦ ?_)
  have hu (redis : Bool) : ActAlike
      (Py.update fun s ↦ { s with pep := { s.pep with redis := redis } })
      (Py.update fun s ↦ { s with pep := { s.pep with redis := redis } }) := by
    refine .update ?_
    rintro _ _ ⟨pep, request, context, h⟩
    exact .mk _ request context h
  cases reply with
  | ok => exact .bind (hu true) fun _ ↦ .pure true
  | error cls => exact .bind (hu false) fun _ ↦ .pure false

private theorem actAlike_checkSuspension : ActAlike checkSuspension checkSuspension := by
  refine .read_bind ?_
  rintro _ _ ⟨pep, request, context, -⟩
  refine .bind actAlike_getRedis fun connected ↦ .ite (.handle ?_ fun e ↦ ?_) (.pure ())
  · exact .bind (actAlike_service _ _) fun suspended ↦ .ite (.raise _) (.pure ())
  · cases e with
    | policyDenial action reason policyRef => exact .raise _
    | _ => exact .pure ()

private theorem actAlike_countAction : ActAlike countAction countAction := by
  refine .read_bind ?_
  rintro _ _ ⟨pep, request, context, -⟩
  refine .bind (.ask _) fun now ↦ .bind (actAlike_service _ _) fun count ↦ ?_
  have hc : ActAlike (Py.update fun s ↦ { s with request := s.request.withCount count })
      (Py.update fun s ↦ { s with request := s.request.withCount count }) := by
    refine .update ?_
    rintro _ _ ⟨pep, request, context, h⟩
    exact .mk pep (request.withCount count) _ (h.setMember _ (.same _))
  exact .ite (.bind (actAlike_service _ _) fun _ ↦ hc) hc

private theorem actAlike_injectRateLimitCount :
    ActAlike injectRateLimitCount injectRateLimitCount :=
  .bind actAlike_getRedis fun _ ↦ .ite (.handle actAlike_countAction fun _ ↦ .pure ()) (.pure ())

/-- Whether a body can be written does not depend on the texts of its context. -/
theorem isJson_opaInput (request : ActionRequest) {context : List (String × Value)}
    (h : Retexted request.context context) :
    (opaInput { request with context := context }).isJson = (opaInput request).isJson := by
  simp only [opaInput, ActionRequest.dump, Value.isJson, Value.isJsonMembers, h.isJson]

private theorem actAlike_evaluate : ActAlike evaluate evaluate := by
  refine .read_bind ?_
  rintro _ _ ⟨pep, request, context, h⟩
  have hj := isJson_opaInput request h
  simp only [opaInput] at hj
  simp only [hj]
  refine .ite (.of_apart ?_ ?_) (.raise _)
  all_goals simp [Call.HoldsContext, Call.stage]

private theorem actAlike_evaluateCedar : ActAlike evaluateCedar evaluateCedar := by
  refine .read_bind ?_
  rintro _ _ ⟨pep, request, context, -⟩
  cases hr : inferCedarResourceType request.action with
  | none =>
    simp only [hr]
    exact .pure _
  | some resourceType =>
    simp only [hr]
    exact actAlike_cedar _ _

/-- An approval is queued with nothing of the context. -/
theorem actAlike_queueApproval (decision : PolicyDecision) :
    ActAlike (queueApproval rt decision) (queueApproval rt decision) := by
  refine .read_bind ?_
  rintro _ _ ⟨pep, request, context, -⟩
  refine .bind (.ask _) fun requestId ↦ .bind (actAlike_service _ _) fun _ ↦
    .bind (.ask _) fun now ↦ .bind (actAlike_service _ _) fun ttl ↦
    .bind (actAlike_service _ _) fun _ ↦ .pure _

private theorem actAlike_actOn (decision : PolicyDecision) :
    ActAlike (actOn rt decision) (actOn rt decision) := by
  refine .read_bind ?_
  rintro _ _ ⟨pep, request, context, -⟩
  cases decision.effect with
  | allow => exact .bind actAlike_evaluateCedar fun permission ↦ .ite (.pure ()) (.raise _)
  | requireApproval => exact .bind (actAlike_queueApproval decision) fun requestId ↦ .raise _
  | deny => exact .raise _

/-- Requests that differ in texts of their contexts are enforced alike. -/
theorem actAlike_enforce : ActAlike (enforce rt) (enforce rt) :=
  .bind actAlike_checkIpBinding fun _ ↦ .bind actAlike_checkSuspension fun _ ↦
    .bind actAlike_injectRateLimitCount fun _ ↦ .bind actAlike_evaluate fun decision ↦
    actAlike_actOn decision

end

/-! ### What is disclosed -/

/-- The inputs that are posted to the policy engine. -/
def posts (t : List Event) : List Value :=
  t.filterMap fun
    | ⟨.post _ body, _⟩ => some body
    | _ => none

/-- The requests that the resource policy is asked about. -/
def consulted (t : List Event) : List CedarRequest :=
  t.filterMap fun
    | ⟨.cedar request, _⟩ => some request
    | _ => none

/-- The documents posted in two traces, one after the other. -/
@[simp] theorem posts_append (t u : List Event) : posts (t ++ u) = posts t ++ posts u :=
  List.filterMap_append

/-- A document that is posted comes first. -/
@[simp] theorem posts_cons_post (url : String) (body : Value) (reply : HttpReply)
    (t : List Event) : posts (⟨.post url body, reply⟩ :: t) = body :: posts t := rfl

private theorem posts_of_within {stages : List Stage} {t : List Event} (h : Within stages t)
    (hs : .policy ∉ stages) : posts t = [] := by
  rw [posts, List.filterMap_eq_nil_iff]
  intro e he
  split
  · exact absurd (h _ he) hs
  · rfl

private theorem consulted_of_within {stages : List Stage} {t : List Event} (h : Within stages t)
    (hs : .resource ∉ stages) : consulted t = [] := by
  rw [consulted, List.filterMap_eq_nil_iff]
  intro e he
  split
  · exact absurd (h _ he) hs
  · rfl

/-- A context goes out with a post or with a question to the resource policy. -/
theorem not_holdsContext {t : List Event} (hp : posts t = []) (hc : consulted t = []) {e : Event}
    (he : e ∈ t) : ¬ e.1.HoldsContext := by
  rw [posts, List.filterMap_eq_nil_iff] at hp
  rw [consulted, List.filterMap_eq_nil_iff] at hc
  intro hs
  obtain ⟨c, reply⟩ := e
  cases c with
  | post url body => cases hp _ he
  | cedar request => cases hc _ he
  | redis c => cases c <;> simp [Call.HoldsContext, Call.stage] at hs
  | _ => simp [Call.HoldsContext, Call.stage] at hs

/-- The input of the policy engine holds the context of the request. -/
theorem context_of_opaInput {request request' : ActionRequest}
    (h : opaInput request = opaInput request') : request.context = request'.context := by
  have hc := congrArg (·.path? ["input", "context"]) h
  exact Value.obj.inj (Option.some.inj hc)

/-- The request passes every check before the policy engine, with what the services answer: its
address is that of the token, the agent is not reported as suspended, and the body can be
written as JSON. -/
structure Passes (request : ActionRequest) (t : List Event) : Prop where
  bound : IpBound request
  unsuspended : t.any (suspends request.agentId) = false
  serializable : (opaInput (request.sent t)).isJson = true

section
variable {rt : Runtime} {s : State} {t : List Event} {out : Except PyExn Unit}

/-- Nothing is posted before a request is admitted. -/
theorem Admitted.posts (h : Admitted s t) : posts t = [] :=
  posts_of_within h.within (by decide)

/-- Nobody is consulted before a request is admitted. -/
theorem Admitted.consulted (h : Admitted s t) : consulted t = [] :=
  consulted_of_within h.within (by decide)

/-- A request that passes the checks is posted, with the count of its agent and nothing else in
addition, and no other is; without a post the resource policy is not asked. -/
theorem Enforced.posted (h : Enforced rt s t out) :
    (Passes s.request t ∧ posts t = [opaInput (s.request.sent t)]) ∨
      ¬ Passes s.request t ∧ posts t = [] ∧ consulted t = [] := by
  cases h with
  | unbound hb ip hip => exact .inr ⟨fun hp ↦ hb hp.bound, rfl, rfl⟩
  | illTyped e hip =>
    refine .inr ⟨fun hp ↦ ?_, rfl, rfl⟩
    obtain ⟨ip, hi, -⟩ := hp.bound
    cases hip.symm.trans hi
  | suspended hb hw hs =>
    refine .inr ⟨fun hp ↦ ?_, posts_of_within hw (by decide), consulted_of_within hw (by decide)⟩
    cases hs.symm.trans hp.unsuspended
  | unserializable ha hj =>
    refine .inr ⟨fun hp ↦ ?_, ha.posts, ha.consulted⟩
    cases hj.symm.trans hp.serializable
  | @unevaluated t u ha hj reply e hr hu =>
    have hw : Within [.policy, .resource, .approval, .clock]
        (⟨.post (opaAddress s.pep) (opaInput (s.request.sent t)), reply⟩ :: u) :=
      (within_cons ..).mpr ⟨by simp [Call.stage], hu.mono (by decide)⟩
    left
    rw [posts_append, ha.posts, posts_cons_post, posts_of_within hu (by decide), sent_append hw]
    refine ⟨⟨ha.bound, ?_, ?_⟩, rfl⟩
    · rw [List.any_append, ha.unsuspended, any_of_within (fun _ ↦ suspends_stage) hw (by decide)]
      rfl
    · rw [sent_append hw, hj]
  | @evaluated t u v ha hj reply decision hr hu out hd =>
    have hw : Within [.policy, .resource, .approval, .clock]
        (⟨.post (opaAddress s.pep) (opaInput (s.request.sent t)), reply⟩ :: (u ++ v)) :=
      (within_cons ..).mpr ⟨by simp [Call.stage], (within_append ..).mpr
        ⟨hu.mono (by decide), hd.within.mono (by decide)⟩⟩
    left
    rw [posts_append, ha.posts, posts_cons_post, posts_append, posts_of_within hu (by decide),
      posts_of_within hd.within (by decide), sent_append hw]
    refine ⟨⟨ha.bound, ?_, ?_⟩, rfl⟩
    · rw [List.any_append, ha.unsuspended, any_of_within (fun _ ↦ suspends_stage) hw (by decide)]
      rfl
    · rw [sent_append hw, hj]

end

end NhiSentinel.Pep
