import NhiSentinel.Audit.Producer

/-!
# The audit store and its API

The rows that `_persist` of `audit/consumer.py` writes, as the database library returns them,
and the endpoints of `audit/api.py` that query them and verify a chain.
-/

namespace NhiSentinel.Audit
open NhiSentinel.Base

/-! ### Rows -/

/-- A row of `audit_events`. A column of JSON is returned as its text. -/
structure Row where
  eventId : String
  schemaVersion : String
  timestamp : DateTime
  agentId : String
  agentType : String
  taskId : String
  action : String
  resourceArn : String
  decision : String
  decisionReason : Option String
  policyRef : Option String
  policyVersion : Option String
  tokenJti : Option String
  sourceIp : Option String
  environment : Option String
  executionResult : Option String
  executionError : Option String
  anomalyScore : Option Decimal
  eventHash : String
  previousEventHash : String

/-- Whether `event.execution_result` is true, `consumer.py:59`. -/
def AuditEvent.hasResult (event : AuditEvent) : Bool := event.executionResult.any (· ≠ [])

/-- The row of an event, `consumer.py:41`, for a function that writes a result as JSON. Points in
time come back in UTC. -/
def AuditEvent.row (dumps : List (String × Value) → String) (event : AuditEvent) : Row where
  eventId := event.eventId
  schemaVersion := event.schemaVersion
  timestamp := event.timestamp.toUtc
  agentId := event.agentId
  agentType := event.agentType
  taskId := event.taskId
  action := event.action
  resourceArn := event.resourceArn
  decision := event.decision
  decisionReason := event.decisionReason
  policyRef := event.policyRef
  policyVersion := event.policyVersion
  tokenJti := event.tokenJti
  sourceIp := event.sourceIp
  environment := event.environment
  executionResult := if event.hasResult then event.executionResult.map dumps else none
  executionError := event.executionError
  anomalyScore := event.anomalyScore
  eventHash := event.eventHash
  previousEventHash := event.previousEventHash

/-- `AuditEvent.model_validate(dict(row))`: a text is no dictionary. -/
def Row.validate (row : Row) : Option AuditEvent :=
  match row.executionResult with
  | some _ => none
  | none => some {
      eventId := row.eventId
      schemaVersion := row.schemaVersion
      timestamp := row.timestamp
      agentId := row.agentId
      agentType := row.agentType
      taskId := row.taskId
      action := row.action
      resourceArn := row.resourceArn
      decision := row.decision
      decisionReason := row.decisionReason
      policyRef := row.policyRef
      policyVersion := row.policyVersion
      tokenJti := row.tokenJti
      sourceIp := row.sourceIp
      environment := row.environment
      executionResult := none
      executionError := row.executionError
      anomalyScore := row.anomalyScore
      previousEventHash := row.previousEventHash
      eventHash := row.eventHash }

/-- What of an event is left in its row where there is no result. -/
def AuditEvent.readBack (event : AuditEvent) : AuditEvent :=
  { event with timestamp := event.timestamp.toUtc, executionResult := none }

/-- A stored row is validated unless it has a result. -/
theorem validate_row (dumps : List (String × Value) → String) (event : AuditEvent) :
    (event.row dumps).validate = if event.hasResult then none else some event.readBack := by
  rw [Row.validate, AuditEvent.row]
  cases hr : event.hasResult with
  | false => rfl
  | true =>
    cases he : event.executionResult with
    | none =>
      rw [AuditEvent.hasResult, he] at hr
      cases hr
    | some kvs => rfl

/-- An event in UTC is hashed as its row is. -/
theorem verifyChain_readBack (sha256 : String → String) {events : List AuditEvent}
    (hu : ∀ e ∈ events, e.timestamp.utcoffset = some 0) :
    verifyChain sha256 (events.map AuditEvent.readBack) = verifyChain sha256 events := by
  have hm : events.map AuditEvent.readBack =
      events.map fun e ↦ { e with executionResult := none } := by
    refine List.map_congr_left fun e he ↦ ?_
    rw [AuditEvent.readBack, DateTime.toUtc, if_pos (hu e he)]
  rw [hm, Bool.eq_iff_iff, verifyChain_iff, verifyChain_iff, ← HashChain.verifies_comap]
  rfl

/-! ### Queries -/

/-- Whether a text matches a pattern of `LIKE`. -/
def like : List Char → List Char → Bool
  | [], cs => cs.isEmpty
  | '%' :: pattern, cs => cs.tails.any fun rest ↦ like pattern rest
  | '_' :: pattern, cs => match cs with
    | [] => false
    | _ :: cs => like pattern cs
  | '\\' :: c :: pattern, cs => match cs with
    | [] => false
    | d :: cs => c = d && like pattern cs
  | c :: pattern, cs => match cs with
    | [] => false
    | d :: cs => c = d && like pattern cs

/-- The arguments of `list_events` that select rows, `api.py:58`; `upTo` is `until`. -/
structure EventQuery where
  agentId : Option String := none
  action : Option String := none
  decision : Option String := none
  since : Option DateTime := none
  upTo : Option DateTime := none

/-- A condition of the WHERE clause with its parameter. -/
inductive Condition where
  | agentId (value : String)
  | action (pattern : String)
  | decision (value : String)
  | since (time : DateTime)
  | upTo (time : DateTime)

/-- The conditions that a query asks for, `api.py:73`: an empty text counts as none. `other`
converts texts outside of ASCII to upper case. -/
def EventQuery.conditions (other : String → String) (query : EventQuery) : List Condition :=
  ((query.agentId.filter (· ≠ "")).map Condition.agentId).toList ++
  ((query.action.filter (· ≠ "")).map fun action ↦ .action (action ++ "%")).toList ++
  ((query.decision.filter (· ≠ "")).map fun decision ↦
    .decision (Python.upper other decision)).toList ++
  (query.since.map Condition.since).toList ++
  (query.upTo.map Condition.upTo).toList

/-- Whether a row meets a condition. -/
def Condition.holds (row : Row) : Condition → Bool
  | agentId value => row.agentId = value
  | action pattern => like pattern.toList row.action.toList
  | decision value => row.decision = value
  | since time => time.instant ≤ row.timestamp.instant
  | upTo time => row.timestamp.instant ≤ time.instant

/-- Whether `list_events` finds a row, before the page is cut. -/
def EventQuery.finds (other : String → String) (query : EventQuery) (row : Row) : Bool :=
  (query.conditions other).all (·.holds row)

/-! ### Verification -/

/-- The answer of `/chain/verify`, `api.py:164`. -/
structure ChainReport where
  agentId : String
  valid : Bool
  eventCount : Nat
  note : Option String := none

/-- `HTTPException`. -/
structure HttpException where
  statusCode : Nat
  detail : String

/-- `verify_chain` of `api.py:142`, from the rows that the database returns or the exception that
is raised on the way. -/
def verifyEndpoint (sha256 : String → String) (agentId : String)
    (fetched : Except String (List Row)) : Except HttpException ChainReport :=
  match fetched with
  | .error _ => .error ⟨503, "Verification unavailable"⟩
  | .ok [] => .ok ⟨agentId, true, 0, some "no events found"⟩
  | .ok rows =>
    match rows.mapM Row.validate with
    | none => .error ⟨503, "Verification unavailable"⟩
    | some events => .ok ⟨agentId, verifyChain sha256 events, events.length, none⟩

/-- The endpoint reports a valid chain. -/
def ReportsValid (response : Except HttpException ChainReport) : Prop :=
  ∃ report, response = .ok report ∧ report.valid = true

/-- The events of an agent in an order in which its rows may be returned: by their timestamps,
ties in any order. -/
structure Selected (store : List AuditEvent) (agentId : String) (events : List AuditEvent) :
    Prop where
  rows : events.Perm (store.filter (·.agentId = agentId))
  ordered : events.Pairwise fun a b ↦ a.timestamp.instant ≤ b.timestamp.instant

private theorem mapM_validate (dumps : List (String × Value) → String) (events : List AuditEvent) :
    (events.map (·.row dumps)).mapM Row.validate =
      if events.any AuditEvent.hasResult then none else some (events.map AuditEvent.readBack) := by
  induction events with
  | nil => rfl
  | cons event rest ih =>
    rw [List.map_cons, List.mapM_cons, validate_row, ih, List.any_cons]
    cases event.hasResult with
    | true => rfl
    | false => cases rest.any AuditEvent.hasResult <;> rfl

/-- Rows of events in UTC are reported valid when there are none, or when none has a result and
the events pass the check. -/
theorem reportsValid_iff (sha256 : String → String) (dumps : List (String × Value) → String)
    (agentId : String) {events : List AuditEvent}
    (hu : ∀ e ∈ events, e.timestamp.utcoffset = some 0) :
    ReportsValid (verifyEndpoint sha256 agentId (.ok (events.map (·.row dumps)))) ↔
      events = [] ∨ events.any AuditEvent.hasResult = false ∧ verifyChain sha256 events = true := by
  cases events with
  | nil => exact ⟨fun _ ↦ .inl rfl, fun _ ↦ ⟨_, rfl, rfl⟩⟩
  | cons event rest =>
    have hm := mapM_validate dumps (event :: rest)
    have hc := verifyChain_readBack sha256 hu
    rw [verifyEndpoint]
    · rw [hm]
      cases (event :: rest).any AuditEvent.hasResult with
      | true => exact ⟨nofun, nofun⟩
      | false =>
        constructor
        · rintro ⟨_, ⟨⟩, hv⟩
          exact .inr ⟨rfl, hc ▸ hv⟩
        · rintro (h | h)
          · cases h
          · exact ⟨_, rfl, hc.trans h.2⟩
    · exact nofun

end NhiSentinel.Audit
