import NhiSentinel.Audit.Schema

/-!
# The producer

`AuditProducer` of `audit/producer.py`, with the outcome of each send as an input. The events
that one producer completes grow a chain from the hash it began with.
-/

namespace NhiSentinel.Audit
open NhiSentinel.Base

/-- What becomes of a message to Kafka: it is acknowledged in time, or an exception is caught. -/
inductive SendOutcome where
  | acknowledged
  | failed
  deriving DecidableEq

/-- `AuditProducer`, `producer.py:30`: its connection is there or not. -/
structure AuditProducer where
  lastHash : String
  fallback : List AuditEvent
  connected : Bool

/-- `AuditProducer.__init__`, `producer.py:31`. -/
def AuditProducer.new (connected : Bool) : AuditProducer := ⟨genesisHash, [], connected⟩

section
variable (sha256 : String → String)

/-- An event with its chain fields, `producer.py:57`. -/
def AuditProducer.complete (producer : AuditProducer) (event : AuditEvent) : AuditEvent :=
  let linked := { event with previousEventHash := producer.lastHash }
  { linked with eventHash := computeEventHash sha256 linked }

/-- `publish`, `producer.py:55`. -/
def AuditProducer.publish (producer : AuditProducer) (event : AuditEvent) (outcome : SendOutcome) :
    AuditEvent × AuditProducer :=
  let event := producer.complete sha256 event
  let producer := { producer with lastHash := event.eventHash }
  if producer.connected ∧ outcome = .acknowledged then (event, producer)
  else (event, { producer with fallback := producer.fallback ++ [event] })

/-- Events published one after the other: what is completed, each with the outcome of its send,
and the producer afterwards. -/
def AuditProducer.publishAll (producer : AuditProducer) :
    List (AuditEvent × SendOutcome) → List (AuditEvent × SendOutcome) × AuditProducer
  | [] => ([], producer)
  | (event, outcome) :: sends =>
    let sent := producer.publish sha256 event outcome
    let rest := sent.2.publishAll sends
    ((sent.1, outcome) :: rest.1, rest.2)

/-- The events that were published, completed. -/
def AuditProducer.published (producer : AuditProducer) (sends : List (AuditEvent × SendOutcome)) :
    List AuditEvent :=
  (producer.publishAll sha256 sends).1.map Prod.fst

/-- The published events whose sends were acknowledged. -/
def AuditProducer.acknowledged (producer : AuditProducer)
    (sends : List (AuditEvent × SendOutcome)) : List AuditEvent :=
  ((producer.publishAll sha256 sends).1.filter fun sent ↦ sent.2 = .acknowledged).map Prod.fst

end

/-! ### Growth -/

variable {sha256 : String → String} {producer : AuditProducer}

/-- What is published is the completed event. -/
@[simp] theorem publish_fst (event : AuditEvent) (outcome : SendOutcome) :
    (producer.publish sha256 event outcome).1 = producer.complete sha256 event := by
  rw [AuditProducer.publish]
  split <;> rfl

/-- The producer keeps the hash of what it published last. -/
@[simp] theorem publish_lastHash (event : AuditEvent) (outcome : SendOutcome) :
    (producer.publish sha256 event outcome).2.lastHash =
      (producer.complete sha256 event).eventHash := by
  rw [AuditProducer.publish]
  split <;> rfl

/-- The hash of an event does not go into its canonical form. -/
theorem complete_eventHash (event : AuditEvent) :
    computeEventHash sha256 (producer.complete sha256 event) =
      (producer.complete sha256 event).eventHash := rfl

private theorem publishAll_cons (event : AuditEvent) (outcome : SendOutcome)
    (sends : List (AuditEvent × SendOutcome)) :
    producer.publishAll sha256 ((event, outcome) :: sends) =
      ((producer.complete sha256 event, outcome) ::
        ((producer.publish sha256 event outcome).2.publishAll sha256 sends).1,
        ((producer.publish sha256 event outcome).2.publishAll sha256 sends).2) := by
  simp only [AuditProducer.publishAll, publish_fst]

/-- The outcomes stay with the events. -/
theorem publishAll_outcomes (sha256 : String → String) (producer : AuditProducer)
    (sends : List (AuditEvent × SendOutcome)) :
    (producer.publishAll sha256 sends).1.map Prod.snd = sends.map Prod.snd := by
  induction sends generalizing producer with
  | nil => rfl
  | cons send sends ih => rw [publishAll_cons, List.map_cons, List.map_cons, ih]

/-- A published event is one of those given, completed by the producer at some time. -/
theorem exists_of_mem_published {e : AuditEvent} {sends : List (AuditEvent × SendOutcome)}
    (h : e ∈ producer.published sha256 sends) :
    ∃ send ∈ sends, ∃ at' : AuditProducer, e = at'.complete sha256 send.1 := by
  induction sends generalizing producer with
  | nil => cases h
  | cons send sends ih =>
    rw [AuditProducer.published, publishAll_cons, List.map_cons, List.mem_cons] at h
    rcases h with rfl | h
    · exact ⟨send, List.mem_cons_self, producer, rfl⟩
    · obtain ⟨send', hs, hp⟩ := ih h
      exact ⟨send', List.mem_cons_of_mem _ hs, hp⟩

/-- A producer grows a chain from its last hash. -/
theorem published_grown (sha256 : String → String) (producer : AuditProducer)
    (sends : List (AuditEvent × SendOutcome)) :
    (chain sha256).Grown producer.lastHash (producer.published sha256 sends) := by
  induction sends generalizing producer with
  | nil => exact .nil
  | cons send sends ih =>
    rw [AuditProducer.published, publishAll_cons, List.map_cons, HashChain.grown_cons]
    refine ⟨rfl, complete_eventHash send.1, ?_⟩
    have h := ih (producer.publish sha256 send.1 send.2).2
    rw [publish_lastHash] at h
    exact h

/-- What a producer completes passes the check of its chain. -/
theorem verifyChain_published (producer : AuditProducer) (sends : List (AuditEvent × SendOutcome)) :
    verifyChain sha256 (producer.published sha256 sends) = true :=
  (verifyChain_iff sha256 _).mpr (published_grown sha256 producer sends).verifies

end NhiSentinel.Audit
