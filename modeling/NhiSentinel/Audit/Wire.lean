import NhiSentinel.Approval.Record
import NhiSentinel.Audit.Producer

/-!
# Events on the wire

The JSON form of an `AuditEvent`, as `model_dump_json` writes it for Kafka and as the consumers
read it: `model_validate_json` in `audit/consumer.py`, `json.loads` and `model_validate` in
`anomaly/service.py`. How the validation library reads identifiers, points in time and numbers,
and how it writes a point in time and a dictionary, is a parameter.
-/

namespace NhiSentinel.Audit
open NhiSentinel.Base NhiSentinel.Pep

/-- How the validation library reads and writes what JSON has no kind of its own for. -/
structure WireFormat where
  readUuid : Value → Option String
  readTime : Value → Option DateTime
  readFloat : Value → Option Decimal
  writeTime : DateTime → String
  jsonDict : DictForm

/-- What the defaults of an event are taken from: a new identifier and the clock. -/
structure Fresh where
  eventId : String
  now : DateTime

/-- An optional dictionary field. -/
def validateDictOrNone : Option Value → Option (Option (List (String × Value)))
  | none | some .null => some none
  | some (.obj kvs) => some (some kvs)
  | some _ => none

/-- An optional number. -/
def WireFormat.validateFloatOrNone (format : WireFormat) : Option Value → Option (Option Decimal)
  | none | some .null => some none
  | some v => (format.readFloat v).map some

/-- An optional value as a document. -/
def orNull (v : Option Value) : Value := v.getD .null

namespace AuditEvent

/-- The document of an event. -/
def dump (format : WireFormat) (event : AuditEvent) : Value := .obj [
  ("event_id", .str event.eventId),
  ("schema_version", .str event.schemaVersion),
  ("timestamp", .str (format.writeTime event.timestamp)),
  ("agent_id", .str event.agentId),
  ("agent_type", .str event.agentType),
  ("task_id", .str event.taskId),
  ("action", .str event.action),
  ("resource_arn", .str event.resourceArn),
  ("decision", .str event.decision),
  ("decision_reason", orNull (event.decisionReason.map .str)),
  ("policy_ref", orNull (event.policyRef.map .str)),
  ("policy_version", orNull (event.policyVersion.map .str)),
  ("token_jti", orNull (event.tokenJti.map .str)),
  ("source_ip", orNull (event.sourceIp.map .str)),
  ("environment", orNull (event.environment.map .str)),
  ("execution_result", orNull (event.executionResult.map .obj)),
  ("execution_error", orNull (event.executionError.map .str)),
  ("anomaly_score", orNull (event.anomalyScore.map .num)),
  ("previous_event_hash", .str event.previousEventHash),
  ("event_hash", .str event.eventHash)]

/-- The event with its result as it is read back from JSON. -/
def onWire (format : WireFormat) (event : AuditEvent) : AuditEvent :=
  { event with executionResult := event.executionResult.map fun result ↦
      (format.jsonDict (.obj result)).getD result }

/-- `model_dump_json`, or nothing where the library raises on the result. -/
def dumpJson (format : WireFormat) (event : AuditEvent) : Option String :=
  if event.executionResult.all fun result ↦ (format.jsonDict (.obj result)).isSome then
    (Json.write ((event.onWire format).dump format)).map String.ofList
  else none

/-- `model_validate`. -/
def validate? (format : WireFormat) (fresh : Fresh) (v : Value) : Option AuditEvent := do
  let eventId ← (v.get? "event_id").elim (some fresh.eventId) format.readUuid
  let schemaVersion ← (v.get? "schema_version").elim (some "1.0") validateStr
  let timestamp ← (v.get? "timestamp").elim (some fresh.now) format.readTime
  let agentId ← validateStr (← v.get? "agent_id")
  let agentType ← validateStr (← v.get? "agent_type")
  let taskId ← validateStr (← v.get? "task_id")
  let action ← validateStr (← v.get? "action")
  let resourceArn ← validateStr (← v.get? "resource_arn")
  let decision ← validateStr (← v.get? "decision")
  let decisionReason ← validateStrOrNone (v.get? "decision_reason")
  let policyRef ← validateStrOrNone (v.get? "policy_ref")
  let policyVersion ← validateStrOrNone (v.get? "policy_version")
  let tokenJti ← validateStrOrNone (v.get? "token_jti")
  let sourceIp ← validateStrOrNone (v.get? "source_ip")
  let environment ← validateStrOrNone (v.get? "environment")
  let executionResult ← validateDictOrNone (v.get? "execution_result")
  let executionError ← validateStrOrNone (v.get? "execution_error")
  let anomalyScore ← format.validateFloatOrNone (v.get? "anomaly_score")
  let previousEventHash ← (v.get? "previous_event_hash").elim (some genesisHash) validateStr
  let eventHash ← (v.get? "event_hash").elim (some "") validateStr
  return { eventId, schemaVersion, timestamp, agentId, agentType, taskId, action, resourceArn,
           decision, decisionReason, policyRef, policyVersion, tokenJti, sourceIp, environment,
           executionResult, executionError, anomalyScore, previousEventHash, eventHash }

/-- `model_validate_json`. -/
def validateJson? (format : WireFormat) (fresh : Fresh) (raw : String) : Option AuditEvent :=
  (Json.parse raw).bind (validate? format fresh)

end AuditEvent

/-! ### Round trip -/

/-- The documented behaviour of the validation library: a canonical identifier is read as it is,
a point in time in UTC is read back from its text, a number is a number, and what is written of a
dictionary is its JSON form. -/
structure WireFormat.Lawful (format : WireFormat) : Prop where
  readUuid : ∀ s, Approval.canonicalUuid s = true → format.readUuid (.str s) = some s
  readTime : ∀ n ≤ Python.datetimeMax,
    format.readTime (.str (format.writeTime (.utc n))) = some (.utc n)
  readFloat : ∀ d, format.readFloat (.num d) = some d
  jsonDict : format.jsonDict.Lawful

namespace AuditEvent

/-- An event as an agent publishes it: a canonical identifier, a point in time in UTC, and a
dictionary for the result. -/
structure WellFormed (event : AuditEvent) : Prop where
  eventId : Approval.canonicalUuid event.eventId = true
  timestamp : ∃ n ≤ Python.datetimeMax, event.timestamp = .utc n
  executionResult : ∀ kvs, event.executionResult = some kvs →
    (Value.obj kvs).distinctKeys = true

variable {format : WireFormat} {event : AuditEvent} {json : String}

private theorem validateStrOrNone_orNull (s : Option String) :
    validateStrOrNone (some (orNull (s.map .str))) = some s := by
  cases s <;> rfl

private theorem validateDictOrNone_orNull (kvs : Option (List (String × Value))) :
    validateDictOrNone (some (orNull (kvs.map .obj))) = some kvs := by
  cases kvs <;> rfl

private theorem validateFloatOrNone_orNull (hf : format.Lawful) (d : Option Decimal) :
    format.validateFloatOrNone (some (orNull (d.map .num))) = some d := by
  cases d with
  | none => rfl
  | some d =>
    show (format.readFloat (.num d)).map some = some (some d)
    rw [hf.readFloat]
    rfl

/-- An event is read back from its document. -/
theorem validate?_dump (hf : format.Lawful) (hw : event.WellFormed) (fresh : Fresh) :
    validate? format fresh (event.dump format) = some event := by
  obtain ⟨n, hn, ht⟩ := hw.timestamp
  have hid := hf.readUuid _ hw.eventId
  have htime : format.readTime (.str (format.writeTime event.timestamp)) = some event.timestamp :=
    ht ▸ hf.readTime n hn
  have hstr (s : Option String) := validateStrOrNone_orNull s
  have hdict := validateDictOrNone_orNull event.executionResult
  have hfloat := validateFloatOrNone_orNull hf event.anomalyScore
  have hget (k : String) : (event.dump format).get? k = _ := Value.get?_obj _ k
  simp only [validate?, hget, List.lookup_cons, String.reduceBEq, Option.elim_some,
    Option.bind_eq_bind, Option.bind_some, hid, htime, hstr, hdict, hfloat, validateStr, pure]

private theorem distinctKeys_orNull {v : Option Value}
    (h : ∀ w, v = some w → w.distinctKeys = true) : (orNull v).distinctKeys = true := by
  cases v with
  | none => rfl
  | some w => exact h w rfl

private theorem distinctKeys_orNull_str (s : Option String) :
    (orNull (s.map .str)).distinctKeys = true := by
  cases s <;> rfl

/-- No key is repeated in the document of an event. -/
theorem distinctKeys_dump (format : WireFormat) (hw : event.WellFormed) :
    (event.dump format).distinctKeys = true := by
  have hresult : (orNull (event.executionResult.map .obj)).distinctKeys = true := by
    apply distinctKeys_orNull
    intro w he
    obtain ⟨kvs, hk, rfl⟩ := Option.map_eq_some_iff.mp he
    exact hw.executionResult kvs hk
  have hscore : (orNull (event.anomalyScore.map .num)).distinctKeys = true := by
    cases event.anomalyScore <;> rfl
  rw [dump, Value.distinctKeys]
  simp only [Value.distinctKeysMembers, distinctKeys_orNull_str, hresult, hscore,
    Value.distinctKeys, Bool.and_true, List.map_cons, List.map_nil]
  decide

private theorem isJson_orNull_str (s : Option String) :
    (orNull (s.map .str)).isJson = true := by
  cases s <;> rfl

/-- What is written of a result repeats no key. -/
theorem WellFormed.onWire (hf : format.Lawful) (hw : event.WellFormed) :
    (event.onWire format).WellFormed where
  eventId := hw.eventId
  timestamp := hw.timestamp
  executionResult form hform := by
    obtain ⟨kvs, hk, rfl⟩ := Option.map_eq_some_iff.mp hform
    cases hj : format.jsonDict (.obj kvs) with
    | none => exact hw.executionResult kvs hk
    | some kvs' => exact (hf.jsonDict.json _ _ hj).1

/-- An event whose result is JSON is written as it is. -/
theorem onWire_of_json (hf : format.Lawful) (hw : event.WellFormed)
    (h : ∀ kvs, event.executionResult = some kvs → Value.isJsonMembers kvs = true) :
    event.onWire format = event := by
  have hr : (event.executionResult.map fun result ↦
      (format.jsonDict (.obj result)).getD result) = event.executionResult := by
    cases hk : event.executionResult with
    | none => rfl
    | some kvs =>
      rw [Option.map_some, hf.jsonDict.self kvs (hw.executionResult kvs hk) (h kvs hk)]
      rfl
  exact congrArg (fun result ↦ { event with executionResult := result }) hr

/-- Whether an event can be written is a matter of its result. -/
theorem isSome_dumpJson (hf : format.Lawful) (event : AuditEvent) :
    (event.dumpJson format).isSome =
      event.executionResult.all fun result ↦ (format.jsonDict (.obj result)).isSome := by
  rw [dumpJson]
  split
  · next h =>
    have hresult : (orNull ((event.onWire format).executionResult.map .obj)).isJson = true := by
      show (orNull ((event.executionResult.map _).map .obj)).isJson = true
      cases hk : event.executionResult with
      | none => rfl
      | some kvs =>
        rw [hk, Option.all_some] at h
        obtain ⟨form, hform⟩ := Option.isSome_iff_exists.mp h
        rw [Option.map_some, hform]
        exact (hf.jsonDict.json _ _ hform).2
    have hscore : (orNull ((event.onWire format).anomalyScore.map .num)).isJson = true := by
      cases (event.onWire format).anomalyScore <;> rfl
    rw [Option.isSome_map, Json.isSome_write, h, dump, Value.isJson]
    simp only [Value.isJsonMembers, isJson_orNull_str, Value.isJson, hresult, hscore,
      Bool.and_true]
  · next h =>
    rw [Bool.eq_false_iff.mpr h]
    rfl

end AuditEvent

/-- What `json.loads` does on the texts that the library writes. -/
def LoadsJson (loads : String → Option Value) : Prop :=
  ∀ v cs, Json.write v = some cs → v.distinctKeys = true → loads (String.ofList cs) = some v

/-- The parser of JSON documents reads what is written. -/
theorem loadsJson_parse : LoadsJson Json.parse := fun _ _ ↦ Json.parse_write

variable {format : WireFormat} {loads : String → Option Value} {event : AuditEvent}

/-- An event goes over the wire when the library writes its result, and both consumers then read it
as it was published but for the result, which they read in its JSON form; a result that is JSON is
its own form. -/
theorem wire_roundTrip (hf : format.Lawful) (hl : LoadsJson loads) (hw : event.WellFormed)
    (fresh : Fresh) :
    ((event.dumpJson format).isSome = true ↔ ∀ kvs, event.executionResult = some kvs →
        (format.jsonDict (.obj kvs)).isSome = true) ∧
      ((∀ kvs, event.executionResult = some kvs → Value.isJsonMembers kvs = true) →
        (event.dumpJson format).isSome = true ∧ event.onWire format = event) ∧
      ∀ json, event.dumpJson format = some json →
        AuditEvent.validateJson? format fresh json = some (event.onWire format) ∧
          (loads json).bind (AuditEvent.validate? format fresh) = some (event.onWire format) := by
  have hsome : (event.dumpJson format).isSome = true ↔ ∀ kvs, event.executionResult = some kvs →
      (format.jsonDict (.obj kvs)).isSome = true := by
    rw [AuditEvent.isSome_dumpJson hf, Option.all_eq_true]
  refine ⟨hsome, fun hj ↦ ⟨hsome.mpr fun kvs hk ↦ ?_, AuditEvent.onWire_of_json hf hw hj⟩,
    fun json h ↦ ?_⟩
  · rw [hf.jsonDict.self kvs (hw.executionResult kvs hk) (hj kvs hk)]
    rfl
  · rw [AuditEvent.dumpJson, Option.ite_none_right_eq_some] at h
    obtain ⟨cs, hcs, rfl⟩ := Option.map_eq_some_iff.mp h.2
    have hform := hw.onWire hf
    have hk := AuditEvent.distinctKeys_dump format hform
    have hv := AuditEvent.validate?_dump hf hform fresh
    constructor
    · rw [AuditEvent.validateJson?, Json.parse_write hcs hk, Option.bind_some, hv]
    · rw [hl _ _ hcs hk, Option.bind_some, hv]

/-! ### A format that keeps to it -/

/-- Canonical identifiers, and points in time in ISO form. -/
noncomputable def isoWire : WireFormat where
  readUuid := Approval.isoCodec.readUuid
  readTime
    | .str s => (Function.partialInv Approval.isoText s).map .utc
    | _ => none
  readFloat
    | .num d => some d
    | _ => none
  writeTime t := { t with utcoffset := none }.isoformat ++ "Z"
  jsonDict := Approval.isoDict

/-- The wire format with dates as texts is lawful. -/
theorem isoWire_lawful : isoWire.Lawful where
  readUuid := Approval.isoCodec_lawful.readUuid
  readTime n _ := congrArg (Option.map DateTime.utc)
    (Function.partialInv_left Approval.isoText_injective n)
  readFloat _ := rfl
  jsonDict := Approval.isoDict_lawful

/-- A reading that has returned a count and a datetime. -/
def readingEvent : AuditEvent where
  eventId := "00000000-0000-4000-8000-000000000000"
  timestamp := .utc 1709164800000042
  agentId := "agent-infra-001"
  agentType := "InfraAgent"
  taskId := "task-001"
  action := "s3_get_object"
  resourceArn := "arn:aws:s3:::bucket/key"
  decision := "EXECUTED"
  executionResult := some [("count", .int 2), ("modified", .other true)]

/-- The event of a read is well formed. -/
theorem readingEvent_wellFormed : readingEvent.WellFormed where
  eventId := by decide
  timestamp := ⟨1709164800000042, by decide, rfl⟩
  executionResult := by
    rintro _ ⟨⟩
    decide

/-- It is read as it was published, but for the datetime, which is read as a text. -/
theorem wire_roundTrip_reading : ∃ json, readingEvent.dumpJson isoWire = some json ∧
    AuditEvent.validateJson? isoWire ⟨"", .utc 0⟩ json = some { readingEvent with
      executionResult :=
        some [("count", .int 2), ("modified", .str (Approval.isoText 0))] } := by
  have h := wire_roundTrip isoWire_lawful loadsJson_parse readingEvent_wellFormed ⟨"", .utc 0⟩
  obtain ⟨json, hj⟩ := Option.isSome_iff_exists.mp (h.1.mpr (by rintro _ ⟨⟩; rfl))
  exact ⟨json, hj, (h.2.2 json hj).1⟩

end NhiSentinel.Audit
