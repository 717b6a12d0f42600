import NhiSentinel.Agents.Record
import NhiSentinel.Audit.Store

/-!
# The stored events of a run

Which of the events that a run publishes survive the store: they are written with their
results as JSON, and read back without a decoder.
-/

namespace NhiSentinel.Agents
open NhiSentinel.Base NhiSentinel.Pep NhiSentinel.Audit

/-- An event that a run publishes survives the store exactly when it has no result, or an empty
one, and no text with NUL. -/
theorem published_roundTrips_iff {rt : Runtime} (r : AgentRun rt) (sha256 : String → String)
    (dumps : List (String × Value) → Option String) (producer : AuditProducer)
    {event : AuditEvent} (h : event ∈ published r.trace) :
    RoundTrips sha256 dumps (producer.complete sha256 event) ↔
      event.hasResult = false ∧ (producer.complete sha256 event).Storable :=
  roundTrips_iff (complete_eventHash event) (r.published_own event h).2

/-- The run of a reading that is allowed and returns a dictionary. -/
def answeredRun : AgentRun asciiRuntime :=
  objectRun (decided "ALLOW") (.ok (.dict [(.str "status", .str "ok")]))

/-- The decision of a run that is allowed. -/
theorem published_roundTrips_iff_allowed : ∃ event,
    event ∈ published allowedRun.trace ∧
      (RoundTrips id (fun _ ↦ none) ((AuditProducer.new true).complete id event) ↔
        event.hasResult = false ∧ ((AuditProducer.new true).complete id event).Storable) := by
  obtain ⟨event, hm⟩ : ∃ event, event ∈ published allowedRun.trace := ⟨_, List.mem_cons_self⟩
  exact ⟨event, hm, published_roundTrips_iff allowedRun id _ _ hm⟩

/-- Its result is written, and what is read back of it is refused. -/
theorem answeredRun_lost : ∃ event ∈ published answeredRun.trace,
    event.decision = "EXECUTED" ∧ event.executionResult = some [("status", .str "ok")] ∧
      ∀ sha256 dumps (producer : AuditProducer),
        ¬ RoundTrips sha256 dumps (producer.complete sha256 event) := by
  obtain ⟨event, hm, hd, hr⟩ : ∃ event ∈ published answeredRun.trace,
      event.decision = "EXECUTED" ∧ event.executionResult = some [("status", .str "ok")] :=
    ⟨_, List.mem_cons_of_mem _ List.mem_cons_self, rfl, rfl⟩
  refine ⟨event, hm, hd, hr, fun sha256 dumps producer h ↦ ?_⟩
  have hn := ((published_roundTrips_iff answeredRun sha256 dumps producer hm).mp h).1
  rw [AuditEvent.hasResult, hr] at hn
  cases hn

end NhiSentinel.Agents
