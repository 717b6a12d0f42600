import Mathlib.Data.List.Perm.Basic
import NhiSentinel.Audit.Producer

/-!
# What a producer keeps

One `AuditProducer` over all sequences of `publish` and `drain`. An event whose send is not
acknowledged is buffered until it is drained, also one that a send in doubt has delivered.
-/

namespace NhiSentinel.Audit
open NhiSentinel.Base

/-- What becomes of a send: Kafka acknowledges it in time, it raises, or the wait for it times
out when the message may have been delivered or not. -/
inductive Delivery where
  | acknowledged
  | failed
  | timedOut (delivered : Bool)
  deriving DecidableEq

/-- What `publish` sees of it. -/
def Delivery.outcome : Delivery → SendOutcome
  | acknowledged => .acknowledged
  | failed | timedOut _ => .failed

/-- `drain`, `producer.py:74`. -/
def AuditProducer.drain (producer : AuditProducer) : List AuditEvent × AuditProducer :=
  (producer.fallback, { producer with fallback := [] })

/-- A call of a producer, with what becomes of the send if there is one. -/
inductive ProducerCall where
  | publish (event : AuditEvent) (delivery : Delivery)
  | drain

/-- An event as `publish` has returned it, with what became of its send. -/
structure Publication where
  event : AuditEvent
  delivery : Delivery

/-- A producer with all that it has published and all lists that were drained from it. -/
structure ProducerRun where
  producer : AuditProducer
  publications : List Publication
  drained : List (List AuditEvent)

namespace ProducerRun

/-- Before the first call. -/
def new (connected : Bool) : ProducerRun := ⟨.new connected, [], []⟩

/-- One call. -/
def step (sha256 : String → String) (run : ProducerRun) : ProducerCall → ProducerRun
  | .publish event delivery =>
    let sent := run.producer.publish sha256 event delivery.outcome
    { run with producer := sent.2, publications := run.publications ++ [⟨sent.1, delivery⟩] }
  | .drain =>
    let drained := run.producer.drain
    { run with producer := drained.2, drained := run.drained ++ [drained.1] }

/-- Calls one after the other. -/
def exec (sha256 : String → String) (run : ProducerRun) (calls : List ProducerCall) :
    ProducerRun := calls.foldl (step sha256) run

/-- All events that were published, in their order. -/
def published (run : ProducerRun) : List AuditEvent := run.publications.map Publication.event

/-- A publication that Kafka has acknowledged to a producer. -/
def Acknowledged (connected : Bool) (p : Publication) : Prop :=
  connected = true ∧ p.delivery = .acknowledged

instance (connected : Bool) (p : Publication) : Decidable (Acknowledged connected p) :=
  inferInstanceAs (Decidable (_ ∧ _))

/-- The published events that Kafka has acknowledged. -/
def acknowledged (run : ProducerRun) : List AuditEvent :=
  (run.publications.filter (Acknowledged run.producer.connected ·)).map Publication.event

/-- The published events that it has not. -/
def unacknowledged (run : ProducerRun) : List AuditEvent :=
  (run.publications.filter (¬ Acknowledged run.producer.connected ·)).map Publication.event

/-- All events that were drained or are buffered. -/
def held (run : ProducerRun) : List AuditEvent := run.drained.flatten ++ run.producer.fallback

/-- What every call preserves. -/
structure Conserved (sha256 : String → String) (run : ProducerRun) : Prop where
  held : run.held = run.unacknowledged
  lastHash : run.producer.lastHash = (chain sha256).head genesisHash run.published
  grown : (chain sha256).Grown genesisHash run.published

variable {sha256 : String → String} {run : ProducerRun}

/-- A new producer has lost nothing. -/
theorem conserved_new (sha256 : String → String) (connected : Bool) :
    (new connected).Conserved sha256 := ⟨rfl, rfl, .nil⟩

/-- An event is published: it is the next one of the chain, and is buffered unless it was
acknowledged. -/
theorem Conserved.publish (h : run.Conserved sha256) (event : AuditEvent) (delivery : Delivery) :
    (run.step sha256 (.publish event delivery)).Conserved sha256 := by
  have hsent : (run.step sha256 (.publish event delivery)).publications =
      run.publications ++ [⟨run.producer.complete sha256 event, delivery⟩] := by
    rw [step, publish_fst]
  have hpub : (run.step sha256 (.publish event delivery)).published =
      run.published ++ [run.producer.complete sha256 event] := by
    rw [published, hsent, List.map_append, published, List.map_singleton]
  refine ⟨?_, ?_, ?_⟩
  · have hheld := h.held
    have ho : delivery.outcome = .acknowledged ↔ delivery = .acknowledged := by
      cases delivery <;> simp [Delivery.outcome]
    rw [unacknowledged, hsent, List.filter_append, List.map_append]
    by_cases ha : run.producer.connected = true ∧ delivery = .acknowledged
    · have hp : run.producer.publish sha256 event delivery.outcome =
          (run.producer.complete sha256 event,
            { run.producer with lastHash := (run.producer.complete sha256 event).eventHash }) :=
        if_pos ⟨ha.1, ho.mpr ha.2⟩
      have hn : ¬ ¬ Acknowledged run.producer.connected
          ⟨run.producer.complete sha256 event, delivery⟩ := not_not_intro ha
      rw [ProducerRun.held, step, hp, List.filter_singleton, decide_eq_false hn, cond_false,
        List.map_nil, List.append_nil]
      exact hheld
    · have hp : run.producer.publish sha256 event delivery.outcome =
          (run.producer.complete sha256 event,
            { run.producer with
              lastHash := (run.producer.complete sha256 event).eventHash
              fallback := run.producer.fallback ++ [run.producer.complete sha256 event] }) :=
        if_neg fun hx ↦ ha ⟨hx.1, ho.mp hx.2⟩
      have hn : ¬ Acknowledged run.producer.connected
          ⟨run.producer.complete sha256 event, delivery⟩ := ha
      rw [ProducerRun.held, step, hp, List.filter_singleton, decide_eq_true hn, cond_true,
        List.map_singleton, ← List.append_assoc]
      exact congrArg (· ++ [run.producer.complete sha256 event]) hheld
  · rw [hpub, HashChain.head_concat, step, publish_lastHash]
    rfl
  · rw [hpub]
    exact h.grown.concat h.lastHash (complete_eventHash event)

/-- The buffer is drained: its events go over to the drained lists. -/
theorem Conserved.drain (h : run.Conserved sha256) :
    (run.step sha256 .drain).Conserved sha256 := by
  refine ⟨?_, h.lastHash, h.grown⟩
  rw [ProducerRun.held, step, AuditProducer.drain, List.flatten_append, List.flatten_singleton,
    List.append_nil]
  exact h.held

/-- Every call of a producer conserves the events. -/
theorem Conserved.step (h : run.Conserved sha256) (call : ProducerCall) :
    (run.step sha256 call).Conserved sha256 := by
  cases call with
  | publish event delivery => exact h.publish event delivery
  | drain => exact h.drain

/-- Any calls of a producer conserve the events. -/
theorem Conserved.exec (h : run.Conserved sha256) (calls : List ProducerCall) :
    (run.exec sha256 calls).Conserved sha256 := by
  induction calls generalizing run with
  | nil => exact h
  | cons call calls ih => exact ih (h.step call)

/-- The connection is made once, when the producer is. -/
theorem connected_exec (run : ProducerRun) (calls : List ProducerCall) :
    (run.exec sha256 calls).producer.connected = run.producer.connected := by
  induction calls generalizing run with
  | nil => rfl
  | cons call calls ih =>
    rw [exec, List.foldl_cons]
    apply (ih _).trans
    cases call with
    | publish event delivery =>
      rw [step, AuditProducer.publish]
      split <;> rfl
    | drain => rfl

/-- Over all sequences of calls, every published event was acknowledged or else is, once and in
its place, among the drained and buffered ones; all of them are one chain from the beginning,
which the producer stands at the end of. -/
theorem producer_conserves (sha256 : String → String) (connected : Bool)
    (calls : List ProducerCall) :
    let run := (new connected).exec sha256 calls
    run.producer.connected = connected ∧ run.held = run.unacknowledged ∧
      run.published.Perm (run.acknowledged ++ run.held) ∧
      run.producer.lastHash = (run.published.getLast?.map AuditEvent.eventHash).getD genesisHash ∧
      verifyChain sha256 run.published = true ∧
      ∀ e, run.published.head? = some e → e.previousEventHash = genesisHash := by
  intro run
  have h : run.Conserved sha256 := (conserved_new sha256 connected).exec calls
  have hp : run.published.Perm (run.acknowledged ++ run.held) := by
    rw [h.held, acknowledged, unacknowledged, ← List.map_append]
    have hf := List.filter_append_perm (Acknowledged run.producer.connected ·) run.publications
    simp only [← decide_not] at hf
    exact hf.symm.map _
  exact ⟨connected_exec _ _, h.held, hp, h.lastHash,
    (verifyChain_iff sha256 _).mpr h.grown.verifies, fun _ he ↦ h.grown.prev_head? he⟩

/-- One send fails, the buffer is drained, and one send is in doubt. -/
example (sha256 : String → String) (a b : AuditEvent) :
    (((new true).exec sha256
      [.publish a .failed, .drain, .publish b (.timedOut true)]).held).length = 2 := rfl

end ProducerRun
end NhiSentinel.Audit
