import NhiSentinel.Audit.Api

/-!
# Writing to the store

`_persist` of `audit/consumer.py` on the table of events, and what is read back of an event
that was written.
-/

namespace NhiSentinel.Audit
open NhiSentinel.Base

/-- `audit_events`, `init.sql:32`. -/
abbrev Table := List Row

/-- `INSERT` with `ON CONFLICT (event_id) DO NOTHING`, `consumer.py:24`. -/
def Table.insert (table : Table) (row : Row) : Table :=
  if table.any (·.eventId = row.eventId) then table else table ++ [row]

/-- The texts of an event that go into columns of text. -/
def AuditEvent.texts (event : AuditEvent) : List String :=
  [event.schemaVersion, event.agentId, event.agentType, event.taskId, event.action,
    event.resourceArn, event.decision, event.eventHash, event.previousEventHash] ++
  [event.decisionReason, event.policyRef, event.policyVersion, event.tokenJti, event.sourceIp,
    event.environment, event.executionError].reduceOption

/-- A column of text takes every text without a NUL. -/
def AuditEvent.Storable (event : AuditEvent) : Prop := ∀ s ∈ event.texts, '\x00' ∉ s.toList

instance (event : AuditEvent) : Decidable event.Storable :=
  inferInstanceAs (Decidable (∀ s ∈ event.texts, '\x00' ∉ s.toList))

section
variable (dumps : List (String × Value) → Option String)

/-- Whether a result goes into its column, for the text that it comes back as, if `json.dumps`
and the column take it. No text is made of a result that is false, `consumer.py:57`. -/
def AuditEvent.Dumpable (event : AuditEvent) : Prop :=
  event.hasResult = true → (event.executionResult.bind dumps).isSome = true

instance (event : AuditEvent) : Decidable (event.Dumpable dumps) :=
  inferInstanceAs (Decidable (_ → _))

/-- `_persist`, `consumer.py:40`, or nothing where it raises. -/
def persist (event : AuditEvent) (table : Table) : Option Table :=
  if event.Dumpable dumps ∧ event.Storable then
    some (table.insert (event.row fun result ↦ (dumps result).getD ""))
  else none

end

/-! ### One event -/

variable {dumps : List (String × Value) → Option String} {event : AuditEvent} {table : Table}

private theorem insert_of_not_mem {row : Row} (h : ∀ row' ∈ table, row'.eventId ≠ row.eventId) :
    table.insert row = table ++ [row] := by
  apply if_neg
  rw [List.any_eq_true]
  rintro ⟨row', hm, he⟩
  exact h row' hm (of_decide_eq_true he)

/-- A row that is inserted is the one of its identifier. -/
theorem filter_insert (row : Row) (h : ∀ row' ∈ table, row'.eventId ≠ row.eventId) :
    (table.insert row).filter (·.eventId = row.eventId) = [row] := by
  have hn : table.filter (·.eventId = row.eventId) = [] :=
    List.filter_eq_nil_iff.mpr fun row' hm he ↦ h row' hm (of_decide_eq_true he)
  rw [insert_of_not_mem h, List.filter_append, hn, List.nil_append]
  exact List.filter_cons_of_pos (decide_eq_true rfl)

/-- What an event without a result and without NUL is stored as. -/
theorem persist_of_storable (hr : event.hasResult = false) (hs : event.Storable) :
    persist dumps event table =
      some (table.insert (event.row fun result ↦ (dumps result).getD "")) := by
  refine if_pos ⟨fun h ↦ ?_, hs⟩
  cases hr.symm.trans h

/-- An event is written to a table that does not have it, and its row is read back as an event
whose hash is the one that is stored. -/
def RoundTrips (sha256 : String → String) (dumps : List (String × Value) → Option String)
    (event : AuditEvent) : Prop :=
  ∀ table : Table, (∀ row ∈ table, row.eventId ≠ event.eventId) →
    ∃ table' row back, persist dumps event table = some table' ∧
      table'.filter (·.eventId = event.eventId) = [row] ∧ row.validate = some back ∧
        computeEventHash sha256 back = row.eventHash

/-- An event in UTC with its hash survives exactly when it has no result and no text with NUL. -/
theorem roundTrips_iff {sha256 : String → String}
    (hh : computeEventHash sha256 event = event.eventHash)
    (hu : event.timestamp.utcoffset = some 0) :
    RoundTrips sha256 dumps event ↔ event.hasResult = false ∧ event.Storable := by
  constructor
  · intro h
    have hnil : ∀ row ∈ ([] : Table), row.eventId ≠ event.eventId :=
      fun row hm ↦ absurd hm List.not_mem_nil
    obtain ⟨table', row, back, hp, hf, hv, -⟩ := h [] hnil
    rw [persist] at hp
    split at hp
    · next hd =>
      have hf := (Option.some.inj hp ▸ hf).symm.trans (filter_insert (event.row _) hnil)
      rw [List.singleton_inj.mp hf, validate_row] at hv
      refine ⟨?_, hd.2⟩
      cases hr : event.hasResult with
      | false => rfl
      | true =>
        rw [hr] at hv
        cases hv
    · cases hp
  · rintro ⟨hr, hs⟩ table ht
    refine ⟨_, _, event.readBack, persist_of_storable hr hs,
      filter_insert (event.row _) ht, ?_, ?_⟩
    · rw [validate_row, hr]
      rfl
    · -- the point in time is in UTC already, and the result is not hashed
      have hb : event.readBack = { event with executionResult := none } := by
        rw [AuditEvent.readBack, DateTime.toUtc, if_pos hu]
      rw [hb]
      exact hh

end NhiSentinel.Audit
