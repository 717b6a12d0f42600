import NhiSentinel.Base.JsonRead
import NhiSentinel.Pep.Models

/-!
# Approval requests

The records of `approval/models.py` with their JSON form. How the validation library reads
an identifier and a date, and how it writes a date and a dictionary, is a parameter.
-/

namespace NhiSentinel.Approval
open NhiSentinel.Base NhiSentinel.Pep

/-- `ApprovalStatus`, `approval/models.py:10`. -/
inductive ApprovalStatus where
  | pending
  | approved
  | denied
  | expired
  deriving DecidableEq

namespace ApprovalStatus

/-- The value of the enumeration member. -/
def text : ApprovalStatus → String
  | pending => "PENDING"
  | approved => "APPROVED"
  | denied => "DENIED"
  | expired => "EXPIRED"

/-- The member with the given value. -/
def ofText? : String → Option ApprovalStatus
  | "PENDING" => some pending
  | "APPROVED" => some approved
  | "DENIED" => some denied
  | "EXPIRED" => some expired
  | _ => none

end ApprovalStatus

/-- `RiskLevel`, `approval/models.py:17`. -/
inductive RiskLevel where
  | low
  | medium
  | high
  deriving DecidableEq

namespace RiskLevel

/-- The value of the enumeration member. -/
def text : RiskLevel → String
  | low => "low"
  | medium => "medium"
  | high => "high"

/-- The member with the given value. -/
def ofText? : String → Option RiskLevel
  | "low" => some low
  | "medium" => some medium
  | "high" => some high
  | _ => none

end RiskLevel

/-- How the validation library reads identifiers and dates and writes dates and dictionaries. An
identifier is kept as its canonical text, a date in microseconds. -/
structure Codec where
  readUuid : Value → Option String
  readDate : Value → Option Nat
  writeDate : Nat → Value
  jsonDict : DictForm

/-- `ApprovalRequest`, `approval/models.py:23`. The context is a dictionary. -/
structure ApprovalRequest where
  requestId : String
  agentId : String
  action : String
  resourceArn : String
  taskId : String
  policyRef : String
  riskLevel : RiskLevel
  requestedAt : Nat
  expiresAt : Nat
  requestingTokenJti : String
  context : Value
  status : ApprovalStatus
  approverIdentity : Option String
  resolvedAt : Option Nat

/-- `ApprovalResolution`, `approval/models.py:40`. -/
structure ApprovalResolution where
  requestId : String
  action : String
  approverIdentity : String
  reason : Option String

namespace ApprovalRequest

/-- The document of a request. -/
def dump (codec : Codec) (r : ApprovalRequest) : Value := .obj [
  ("request_id", .str r.requestId),
  ("agent_id", .str r.agentId),
  ("action", .str r.action),
  ("resource_arn", .str r.resourceArn),
  ("task_id", .str r.taskId),
  ("policy_ref", .str r.policyRef),
  ("risk_level", .str r.riskLevel.text),
  ("requested_at", codec.writeDate r.requestedAt),
  ("expires_at", codec.writeDate r.expiresAt),
  ("requesting_token_jti", .str r.requestingTokenJti),
  ("context", r.context),
  ("status", .str r.status.text),
  ("approver_identity", (r.approverIdentity.map Value.str).getD .null),
  ("resolved_at", (r.resolvedAt.map codec.writeDate).getD .null)]

/-- The request with its context as it is read back from JSON, or nothing where the library raises
on the context. -/
def jsonForm (codec : Codec) (r : ApprovalRequest) : Option ApprovalRequest :=
  (codec.jsonDict r.context).map fun kvs ↦ { r with context := .obj kvs }

/-- `model_dump_json`, or nothing where the library raises. -/
def dumpJson (codec : Codec) (r : ApprovalRequest) : Option String :=
  (r.jsonForm codec).bind fun form ↦ (Json.write (form.dump codec)).map String.ofList

/-- A field with a default: absent, or validated. -/
def orDefault {α : Type} (default : α) (validate : Value → Option α) : Option Value → Option α
  | none => some default
  | some v => validate v

/-- A dictionary field. -/
def validateDict : Value → Option Value
  | .obj kvs => some (.obj kvs)
  | _ => none

/-- An optional date. -/
def validateDateOrNone (codec : Codec) : Option Value → Option (Option Nat)
  | none | some .null => some none
  | some v => (codec.readDate v).map some

/-- `model_validate`. -/
def validate? (codec : Codec) (v : Value) : Option ApprovalRequest := do
  let requestId ← codec.readUuid (← v.get? "request_id")
  let agentId ← validateStr (← v.get? "agent_id")
  let action ← validateStr (← v.get? "action")
  let resourceArn ← validateStr (← v.get? "resource_arn")
  let taskId ← validateStr (← v.get? "task_id")
  let policyRef ← validateStr (← v.get? "policy_ref")
  let riskLevel ← RiskLevel.ofText? (← validateStr (← v.get? "risk_level"))
  let requestedAt ← codec.readDate (← v.get? "requested_at")
  let expiresAt ← codec.readDate (← v.get? "expires_at")
  let requestingTokenJti ← validateStr (← v.get? "requesting_token_jti")
  let context ← orDefault (.obj []) validateDict (v.get? "context")
  let status ← orDefault .pending (fun v ↦ (validateStr v).bind ApprovalStatus.ofText?)
    (v.get? "status")
  let approverIdentity ← validateStrOrNone (v.get? "approver_identity")
  let resolvedAt ← validateDateOrNone codec (v.get? "resolved_at")
  return { requestId, agentId, action, resourceArn, taskId, policyRef, riskLevel, requestedAt,
           expiresAt, requestingTokenJti, context, status, approverIdentity, resolvedAt }

/-- `model_validate_json`. -/
def validateJson? (codec : Codec) (raw : String) : Option ApprovalRequest :=
  (Json.parse raw).bind (validate? codec)

end ApprovalRequest
end NhiSentinel.Approval
