import NhiSentinel.Base.DateTime
import NhiSentinel.Base.HashChain
import NhiSentinel.Base.JsonAscii

/-!
# Audit events

`audit/schema.py`: the record of an event, the text of it that is hashed, and the check of a
chain. An identifier is kept as its text. SHA-256 is a parameter: the hexadecimal digest of a
text's bytes.
-/

namespace NhiSentinel.Audit
open NhiSentinel.Base

/-- `GENESIS_HASH`, `audit/schema.py:18`. -/
def genesisHash : String := String.ofList (List.replicate 64 '0')

/-- `AuditEvent`, `audit/schema.py:21`. -/
structure AuditEvent where
  eventId : String
  schemaVersion : String := "1.0"
  timestamp : DateTime
  agentId : String
  agentType : String
  taskId : String
  action : String
  resourceArn : String
  decision : String
  decisionReason : Option String := none
  policyRef : Option String := none
  policyVersion : Option String := none
  tokenJti : Option String := none
  sourceIp : Option String := none
  environment : Option String := none
  executionResult : Option (List (String × Value)) := none
  executionError : Option String := none
  anomalyScore : Option Decimal := none
  previousEventHash : String := genesisHash
  eventHash : String := ""

/-! ### Hash -/

/-- The canonical form of an event, `audit/schema.py:51`. -/
def AuditEvent.canonical (event : AuditEvent) : String :=
  Json.dumpsSorted [
    ("event_id", event.eventId),
    ("timestamp", event.timestamp.isoformat),
    ("agent_id", event.agentId),
    ("agent_type", event.agentType),
    ("task_id", event.taskId),
    ("action", event.action),
    ("resource_arn", event.resourceArn),
    ("decision", event.decision),
    ("previous_event_hash", event.previousEventHash)]

/-- Two events have the same content in every field that is hashed. -/
structure AgreeOnHashed (a b : AuditEvent) : Prop where
  eventId : a.eventId = b.eventId
  timestamp : a.timestamp = b.timestamp
  agentId : a.agentId = b.agentId
  agentType : a.agentType = b.agentType
  taskId : a.taskId = b.taskId
  action : a.action = b.action
  resourceArn : a.resourceArn = b.resourceArn
  decision : a.decision = b.decision
  previousEventHash : a.previousEventHash = b.previousEventHash

private theorem sortKeys_canonical (eventId timestamp agentId agentType taskId action resourceArn
    decision previousEventHash : String) :
    Json.sortKeys [("event_id", eventId), ("timestamp", timestamp), ("agent_id", agentId),
      ("agent_type", agentType), ("task_id", taskId), ("action", action),
      ("resource_arn", resourceArn), ("decision", decision),
      ("previous_event_hash", previousEventHash)] =
    [("action", action), ("agent_id", agentId), ("agent_type", agentType), ("decision", decision),
      ("event_id", eventId), ("previous_event_hash", previousEventHash),
      ("resource_arn", resourceArn), ("task_id", taskId), ("timestamp", timestamp)] := by
  simp [Json.sortKeys, List.insertionSort, List.orderedInsert]

/-- The canonical form determines the fields it is made of. -/
theorem canonical_eq_iff (a b : AuditEvent) : a.canonical = b.canonical ↔ AgreeOnHashed a b := by
  constructor
  · intro h
    have hs := Json.sortKeys_eq_of_dumpsSorted_eq h
    simp only [sortKeys_canonical, List.cons.injEq, Prod.mk.injEq, true_and, and_true] at hs
    obtain ⟨haction, hagent, htype, hdecision, hid, hprev, harn, htask, htime⟩ := hs
    exact ⟨hid, DateTime.isoformat_injective htime, hagent, htype, htask, haction, harn, hdecision,
      hprev⟩
  · rintro ⟨h₁, h₂, h₃, h₄, h₅, h₆, h₇, h₈, h₉⟩
    rw [AuditEvent.canonical, AuditEvent.canonical, h₁, h₂, h₃, h₄, h₅, h₆, h₇, h₈, h₉]

/-- No content of a field passes for another: the canonical form of an event determines its
identifier, the text of its timestamp and the other fields that it is made of. -/
theorem canonical_eq_iff_texts (id id' : BitVec 128) (a b : AuditEvent) :
    { a with eventId := Python.uuidStr id }.canonical =
        { b with eventId := Python.uuidStr id' }.canonical ↔
      id = id' ∧ a.timestamp.isoformat = b.timestamp.isoformat ∧ a.agentId = b.agentId ∧
        a.agentType = b.agentType ∧ a.taskId = b.taskId ∧ a.action = b.action ∧
        a.resourceArn = b.resourceArn ∧ a.decision = b.decision ∧
        a.previousEventHash = b.previousEventHash := by
  rw [canonical_eq_iff]
  constructor
  · rintro ⟨hid, htime, hagent, htype, htask, haction, harn, hdecision, hprev⟩
    exact ⟨Python.uuidStr_injective hid, congrArg DateTime.isoformat htime, hagent, htype, htask,
      haction, harn, hdecision, hprev⟩
  · rintro ⟨rfl, htime, hagent, htype, htask, haction, harn, hdecision, hprev⟩
    exact ⟨rfl, DateTime.isoformat_injective htime, hagent, htype, htask, haction, harn, hdecision,
      hprev⟩

section
variable (sha256 : String → String)

/-- `compute_event_hash`, `audit/schema.py:44`. -/
def computeEventHash (event : AuditEvent) : String := sha256 event.canonical

/-- The loop of `verify_chain` over the events after one that was checked. -/
def verifyAfter (previous : Option AuditEvent) : List AuditEvent → Bool
  | [] => true
  | event :: rest =>
    if computeEventHash sha256 event ≠ event.eventHash then false
    else if previous.any (fun before ↦ event.previousEventHash ≠ before.eventHash) then false
    else verifyAfter (some event) rest

/-- `verify_chain`, `audit/schema.py:69`. -/
def verifyChain (events : List AuditEvent) : Bool := verifyAfter sha256 none events

/-- Events as the records of a hash chain. -/
def chain : HashChain AuditEvent String where
  prev := AuditEvent.previousEventHash
  stored := AuditEvent.eventHash
  digest := computeEventHash sha256

private theorem verifyAfter_eq_true_iff (previous : Option AuditEvent) (events : List AuditEvent) :
    verifyAfter sha256 previous events = true ↔
      (∀ e ∈ events, computeEventHash sha256 e = e.eventHash) ∧
        (previous.toList ++ events).IsChain fun a b ↦ b.previousEventHash = a.eventHash := by
  induction events generalizing previous with
  | nil => cases previous <;> simp [verifyAfter]
  | cons event rest ih =>
    rw [verifyAfter]
    cases previous with
    | none => simp [ih, and_assoc]
    | some before =>
      simp only [Option.any_some, decide_eq_true_eq, ite_not, Bool.if_false_right]
      simp [ih, and_assoc, and_left_comm]

/-- The check of a chain is its verification. -/
theorem verifyChain_iff (events : List AuditEvent) :
    verifyChain sha256 events = true ↔ (chain sha256).Verifies events :=
  verifyAfter_eq_true_iff sha256 none events

end

/-- With an injective hash, a hash binds the fields it is computed from. -/
theorem agree_of_hash_eq {sha256 : String → String} (hi : Function.Injective sha256)
    {a b : AuditEvent} (h : computeEventHash sha256 a = computeEventHash sha256 b) :
    AgreeOnHashed a b :=
  (canonical_eq_iff a b).mp (hi h)

/-- With an injective hash, a hash binds the hash before. -/
theorem prev_eq_of_hash_eq {sha256 : String → String} (hi : Function.Injective sha256)
    (a b : AuditEvent) (h : (chain sha256).digest a = (chain sha256).digest b) :
    (chain sha256).prev a = (chain sha256).prev b :=
  (agree_of_hash_eq hi h).previousEventHash

end NhiSentinel.Audit
