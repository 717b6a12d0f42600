import NhiSentinel.Base.Program
import NhiSentinel.Base.Python
import NhiSentinel.Base.Redis
import NhiSentinel.Pep.Models

/-!
# The policy enforcement point

`PolicyEnforcementPoint` of `pep/client.py` as a program over the services it calls. A
call is answered by a value or by the class name of the exception that is raised; logging
is left out.
-/

namespace NhiSentinel.Pep
open NhiSentinel.Base

/-- The exceptions: the two of `pep/exceptions.py` that carry a decision, and the others by
class name. -/
inductive PyExn where
  | policyDenial (action reason policyRef : String)
  | approvalRequired (action resourceArn requestId : String)
  | other (cls : String)
  deriving DecidableEq

/-- `CedarPrincipal`, `pep/cedar_evaluator.py:32`. -/
structure CedarPrincipal where
  agentId : String
  agentType : String
  scopes : Value

/-- `CedarResource`, `pep/cedar_evaluator.py:39`. -/
structure CedarResource where
  resourceType : String
  resourceId : String
  attributes : List (String × String)

/-- `CedarRequest`, `pep/cedar_evaluator.py:46`. -/
structure CedarRequest where
  principal : CedarPrincipal
  action : String
  resource : CedarResource
  context : List (String × Value)

/-- `CedarDecision`, `pep/cedar_evaluator.py:54`. -/
structure CedarDecision where
  permitted : Bool
  reason : String
  deriving DecidableEq

/-- How a POST ends: in a request error of the HTTP library, in another exception, or in a
response with a status and a body that is read as JSON. -/
inductive HttpReply where
  | requestError
  | raised (cls : String)
  | response (status : Nat) (body : Except String Value)

/-- The calls that leave the enforcement point. -/
inductive Call where
  /-- `redis.from_url` and `ping`, `client.py:203`. -/
  | connect
  | redis (c : Redis.Command)
  /-- `datetime.now`, in microseconds. -/
  | clock
  | post (url : String) (body : Value)
  | cedar (request : CedarRequest)
  | uuid4
  /-- `redis.from_url`, `client.py:291`. -/
  | approvalClient
  /-- `int(os.environ.get("APPROVAL_TTL_SECONDS", 14400))`, `client.py:304`. -/
  | approvalTtl
  /-- `tool_fn`, `client.py:337`. -/
  | tool

/-- What a call is answered. -/
@[reducible] def Call.Reply : Call → Type
  | connect => Except String Unit
  | redis c => Except String c.Reply
  | clock => Nat
  | post .. => HttpReply
  | cedar _ => Except String CedarDecision
  | uuid4 => String
  | approvalClient => Except String Unit
  | approvalTtl => Except String Int
  | tool => Except String Value

/-- A call together with its reply. -/
abbrev Event := Sigma Call.Reply

/-- `PolicyEnforcementPoint`, `client.py:37`: its URL, and whether `_redis` is set. -/
structure PolicyEnforcementPoint where
  opaUrl : String
  redis : Bool

/-- What an enforcement works on: the enforcement point and the request, whose context it
changes. -/
structure State where
  pep : PolicyEnforcementPoint
  request : ActionRequest

/-- A method of the enforcement point. -/
abbrev Method := Py State PyExn Call Call.Reply

/-- `_OPA_POLICY_PATH`, `client.py:34`. -/
def opaPolicyPath : String := "v1/data/nhi/agent/authorization/response"

/-- The value of a reply, or the exception it is raised as. -/
def valueOf {α : Type} (reply : Except String α) : Method α :=
  Py.ofExcept (reply.mapError .other)

/-- Call the environment. -/
def ask (c : Call) : Method c.Reply := Py.ask c

/-- A call that succeeds with a value or raises. -/
def service {α : Type} (c : Call) (h : c.Reply = Except String α) : Method α := do
  valueOf (cast h (← ask c))

/-- `r.sismember`. -/
def sismember (key member : String) : Method Bool := service (.redis (.sismember key member)) rfl

/-- `r.incr`. -/
def incr (key : String) : Method Int := service (.redis (.incr key)) rfl

/-- `r.expire`. -/
def expire (key : String) (seconds : Int) : Method Bool :=
  service (.redis (.expire key seconds)) rfl

/-- `r.setex`. -/
def setex (key : String) (seconds : Int) (value : String) : Method Unit :=
  service (.redis (.setex key seconds value)) rfl

/-- `datetime.now(tz=timezone.utc)`. -/
def now : Method Nat := ask .clock

/-- `self._http.post`. -/
def post (url : String) (body : Value) : Method HttpReply := ask (.post url body)

/-- `self._cedar.evaluate`. -/
def cedar (request : CedarRequest) : Method CedarDecision := service (.cedar request) rfl

/-- `str(uuid.uuid4())`. -/
def uuid4 : Method String := ask .uuid4

/-- The client for approvals, `client.py:291`. -/
def approvalClient : Method Unit := service .approvalClient rfl

/-- The lifetime of approvals, `client.py:304`. -/
def approvalTtl : Method Int := service .approvalTtl rfl

/-- `tool_fn()`. -/
def tool : Method Value := service .tool rfl

/-! ### Before the policy -/

/-- `x.get(key)` on an object that ought to be a dictionary. -/
def dictGet (v : Value) (key : String) : Except PyExn Value :=
  match v with
  | .obj kvs => .ok ((kvs.lookup key).getD .null)
  | _ => .error (.other "AttributeError")

/-- The address that the token is bound to, `client.py:111`. -/
def tokenIp (request : ActionRequest) : Except PyExn Value :=
  let sourceIp := (request.tokenClaims.lookup "source_ip").getD .null
  if sourceIp.truthy then .ok sourceIp
  else
    let agentContext := (request.tokenClaims.lookup "agent_context").getD .null
    dictGet (if agentContext.truthy then agentContext else .obj []) "source_ip"

/-- The address cannot be read where the claims hold something that is no dictionary. -/
theorem tokenIp_error {request : ActionRequest} {e : PyExn} (h : tokenIp request = .error e) :
    e = .other "AttributeError" := by
  have hd : ∀ v key, dictGet v key = .error e → e = .other "AttributeError" := by
    intro v key hv
    cases v <;> cases hv <;> rfl
  rw [tokenIp] at h
  split at h
  · cases h
  · exact hd _ _ h

/-- `_check_ip_binding`, `client.py:103`. -/
def checkIpBinding (rt : Runtime) : Method Unit := do
  let request := (← Py.read).request
  let ip ← Py.ofExcept (tokenIp request)
  if ip.truthy ∧ ip ≠ .str request.sourceIp then
    Py.raise (.policyDenial request.action
      s!"Token IP binding violation: token bound to {Python.str rt ip}, request from {request.sourceIp}"
      "pep.ip_binding")
  else pure ()

/-- `_get_redis`, `client.py:194`: whether a client is there. -/
def getRedis : Method Bool := do
  let s ← Py.read
  if s.pep.redis then pure true
  else
    let reply : Except String Unit ← ask .connect
    match reply with
    | .ok () => do
      Py.update fun s ↦ { s with pep := { s.pep with redis := true } }
      pure true
    | .error _ => do
      Py.update fun s ↦ { s with pep := { s.pep with redis := false } }
      pure false

/-- `_check_suspension`, `client.py:131`. -/
def checkSuspension : Method Unit := do
  let request := (← Py.read).request
  if ← getRedis then
    Py.handle
      (do
        if ← sismember "identities:suspended" request.agentId then
          Py.raise (.policyDenial request.action s!"Identity {request.agentId} is suspended"
            "pep.identity_suspended")
        else pure ())
      fun
        | .policyDenial action reason policyRef => Py.raise (.policyDenial action reason policyRef)
        | _ => pure ()
  else pure ()

/-- The key of the counter of an agent in a minute, `client.py:182`. -/
def rateKey (agentId : String) (minuteBucket : Nat) : String := s!"rate:{agentId}:{minuteBucket}"

/-- The minute of a point in time, `client.py:181`. -/
def minuteBucket (now : Nat) : Nat := now / 60000000

/-- The request with the count of actions in its context, `client.py:186`. -/
def ActionRequest.withCount (request : ActionRequest) (count : Int) : ActionRequest :=
  { request with
    context := Value.setMember request.context "current_action_count_per_minute" (.int count) }

/-- The guarded part of `_inject_rate_limit_count`, `client.py:181–186`. -/
def countAction : Method Unit := do
  let request := (← Py.read).request
  let key := rateKey request.agentId (minuteBucket (← now))
  let count ← incr key
  if count = 1 then
    let _ ← expire key 120
  Py.update fun s ↦ { s with request := s.request.withCount count }

/-- `_inject_rate_limit_count`, `client.py:166`. -/
def injectRateLimitCount : Method Unit := do
  if ← getRedis then Py.handle countAction fun _ ↦ pure ()
  else pure ()

/-! ### Policy engine -/

/-- The decision of an enforcement point that could not ask, `client.py:224–240`. -/
def failClosed (reason evaluatedAt : String) : PolicyDecision where
  effect := .deny
  reason := reason
  policyRef := "pep.fail_closed"
  policyVersion := "n/a"
  evaluatedAt := evaluatedAt
  conditionsEvaluated := []

/-- `x["result"]` on a decoded body. -/
def subscriptResult : Value → Except PyExn Value
  | .obj kvs =>
    match kvs.lookup "result" with
    | some v => .ok v
    | none => .error (.other "KeyError")
  | _ => .error (.other "TypeError")

/-- `PolicyDecision.model_validate(resp.json()["result"])`, `client.py:242`. -/
def decodeDecision (body : Except String Value) : Except PyExn PolicyDecision := do
  let result ← subscriptResult (← body.mapError .other)
  match PolicyDecision.validate? result with
  | some decision => .ok decision
  | none => .error (.other "ValidationError")

/-- Whether a status is a success of the HTTP library. -/
def isSuccess (status : Nat) : Bool := 200 ≤ status && status ≤ 299

/-- `_evaluate`, `client.py:215`. -/
def evaluate : Method PolicyDecision := do
  let s ← Py.read
  let body := Value.obj [("input", s.request.dump)]
  if body.isJson then
    match ← post s!"{s.pep.opaUrl}/{opaPolicyPath}" body with
    | .requestError => do
      pure (failClosed "Policy engine unreachable — fail-closed default"
        (Python.isoformat (← now)))
    | .raised cls => Py.raise (.other cls)
    | .response status reply =>
      if isSuccess status then Py.ofExcept (decodeDecision reply)
      else pure (failClosed s!"Policy engine returned HTTP {status}" (Python.isoformat (← now)))
  else Py.raise (.other "TypeError")

/-! ### Resource policy -/

/-- `_infer_cedar_resource_type`, `client.py:271`. -/
def inferCedarResourceType (action : String) : Option String :=
  if "s3:".toList <+: action.toList then some "NHI::S3Bucket"
  else if "iam:".toList <+: action.toList then some "NHI::IAMRole"
  else none

/-- The request to the resource policy, `client.py:254`. -/
def cedarRequest (request : ActionRequest) (resourceType : String) : CedarRequest where
  principal := {
    agentId := request.agentId
    agentType := request.agentType
    scopes := (request.tokenClaims.lookup "scopes").getD (.arr []) }
  action := request.action
  resource := {
    resourceType := resourceType
    resourceId := request.resourceArn
    attributes := request.resourceTags }
  context := request.context

/-- `_evaluate_cedar`, `client.py:248`. -/
def evaluateCedar : Method CedarDecision := do
  let request := (← Py.read).request
  match inferCedarResourceType request.action with
  | none => pure ⟨true, "not-cedar-governed"⟩
  | some resourceType => cedar (cedarRequest request resourceType)

/-! ### Approval queue -/

/-- The record that `_queue_approval` writes, `client.py:293`. -/
def approvalData (request : ActionRequest) (decision : PolicyDecision)
    (requestId requestedAt : String) : List (String × String) := [
  ("request_id", requestId),
  ("agent_id", request.agentId),
  ("action", request.action),
  ("resource_arn", request.resourceArn),
  ("task_id", request.taskId),
  ("policy_ref", decision.policyRef),
  ("status", "PENDING"),
  ("requested_at", requestedAt)]

/-- `_queue_approval`, `client.py:282`. -/
def queueApproval (rt : Runtime) (decision : PolicyDecision) : Method String := do
  let request := (← Py.read).request
  let requestId ← uuid4
  approvalClient
  let requestedAt := Python.isoformat (← now)
  let ttlSeconds ← approvalTtl
  setex s!"approval:{requestId}" ttlSeconds
    (Python.strDict rt (approvalData request decision requestId requestedAt))
  pure requestId

/-! ### Enforcement -/

/-- The part of `enforce` that acts on the decision, `client.py:79–97`. -/
def actOn (rt : Runtime) (decision : PolicyDecision) : Method Unit := do
  let request := (← Py.read).request
  match decision.effect with
  | .allow => do
    let cedarDecision ← evaluateCedar
    if cedarDecision.permitted then pure ()
    else Py.raise (.policyDenial request.action
      s!"Cedar resource policy denied: {cedarDecision.reason}" "nhi.cedar.resource_policy")
  | .requireApproval => do
    let requestId ← queueApproval rt decision
    Py.raise (.approvalRequired request.action request.resourceArn requestId)
  | .deny => Py.raise (.policyDenial request.action decision.reason decision.policyRef)

/-- `enforce`, `client.py:53`: a normal return means that the action is allowed. -/
def enforce (rt : Runtime) : Method Unit := do
  checkIpBinding rt
  checkSuspension
  injectRateLimitCount
  let decision ← evaluate
  actOn rt decision

/-- `execute_tool`, `client.py:317`. -/
def executeTool (rt : Runtime) : Method Value := do
  enforce rt
  tool

end NhiSentinel.Pep
