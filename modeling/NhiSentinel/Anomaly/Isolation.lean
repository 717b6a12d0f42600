import Mathlib.Algebra.Group.Prod
import Mathlib.Algebra.Group.Nat.Defs
import NhiSentinel.Anomaly.Service
import NhiSentinel.Base.Keyed

/-!
# Agents apart

The anomaly service as a machine with a part for each agent: an event changes the part of
its own agent alone, so what the service holds for an agent is a function of that agent's
events, and events of different agents commute.
-/

namespace NhiSentinel.Anomaly
open NhiSentinel.Base NhiSentinel.Audit

/-- What the service holds for one agent. -/
structure AgentState where
  scorer : AnomalyScorer
  burster : BurstDetector
  history : List AuditEvent
  latestScore : Option Nat
  suspended : Bool

/-- The part of an agent. -/
def Service.agent (service : Service) (agentId : String) : AgentState where
  scorer := service.scorers agentId
  burster := service.bursters agentId
  history := service.histories agentId
  latestScore := service.latestScores agentId
  suspended := agentId ∈ service.suspended

/-- The counters of the service: events, suspensions for a score, bursts. -/
def Service.counters (service : Service) : Nat × Nat × Nat :=
  (service.eventsScored, service.suspensions, service.burstDetections)

section
variable (env : Environment)

/-- The event is kept, scored and counted. -/
def AgentState.observe (state : AgentState) (event : AuditEvent) : AgentState :=
  let history := append state.history event
  let scorer :=
    if minFitSamples ≤ history.length ∧ state.scorer.fittedOn = none then
      state.scorer.fit env history
    else state.scorer
  { state with
    history := history
    scorer := scorer
    latestScore := some (scorer.score env event)
    burster := state.burster.record }

/-- Observing an event suspends nobody. -/
@[simp] theorem AgentState.observe_suspended (state : AgentState) (event : AuditEvent) :
    (state.observe env event).suspended = state.suspended := by simp only [AgentState.observe]

/-- Observing an event records it for the burst detector. -/
@[simp] theorem AgentState.observe_burster (state : AgentState) (event : AuditEvent) :
    (state.observe env event).burster = state.burster.record := by
  simp only [AgentState.observe]

/-- What an event does to its agent: a burst suspends and starts the count anew, a score at the
threshold suspends. -/
def AgentState.handled (state : AgentState) (event : AuditEvent) : AgentState :=
  let observed := state.observe env event
  if observed.burster.isBurst then
    { observed with burster := observed.burster.reset, suspended := true }
  else if observed.scorer.isAnomalous env event then { observed with suspended := true }
  else observed

/-- What an event adds to the counters. -/
def AgentState.counted (state : AgentState) (event : AuditEvent) : Nat × Nat × Nat :=
  let observed := state.observe env event
  if observed.burster.isBurst then (1, 0, 1)
  else if observed.scorer.isAnomalous env event then (1, 1, 0)
  else (1, 0, 0)

variable {env} {service : Service} {event : AuditEvent} {agentId : String}

private theorem agent_observe_self :
    (service.observe env event).agent event.agentId =
      (service.agent event.agentId).observe env event := by
  simp only [Service.agent, Service.observe, Function.update_self]
  rfl

private theorem agent_observe_ne (h : event.agentId ≠ agentId) :
    (service.observe env event).agent agentId = service.agent agentId := by
  simp only [Service.agent, Service.observe, Function.update_of_ne h.symm]
  rfl

/-- The agent that is marked is suspended. -/
@[simp] theorem agent_mark_self :
    (service.mark agentId).agent agentId = { service.agent agentId with suspended := true } := by
  have hm : agentId ∈ (service.mark agentId).suspended := mem_mark.mpr (.inl rfl)
  rw [Service.agent, decide_eq_true hm, Service.mark]
  split <;> rfl

private theorem agent_mark_ne {other : String} (h : agentId ≠ other) :
    (service.mark agentId).agent other = service.agent other := by
  have hm : other ∈ (service.mark agentId).suspended ↔ other ∈ service.suspended := by
    rw [mem_mark]
    exact ⟨fun hx ↦ hx.resolve_left h.symm, .inr⟩
  rw [Service.agent, Service.agent, decide_eq_decide.mpr hm, Service.mark]
  split <;> rfl

/-- Marking an agent counts nothing. -/
@[simp] theorem counters_mark : (service.mark agentId).counters = service.counters := by
  rw [Service.mark]
  split <;> rfl

/-- A detector is put in place of an agent's. -/
def Service.setBurster (service : Service) (agentId : String) (burster : BurstDetector) :
    Service :=
  { service with bursters := Function.update service.bursters agentId burster }

private theorem agent_setBurster_self (burster : BurstDetector) :
    (service.setBurster agentId burster).agent agentId =
      { service.agent agentId with burster } := by
  simp only [Service.agent, Service.setBurster, Function.update_self]
  rfl

private theorem agent_setBurster_ne {other : String} (h : agentId ≠ other)
    (burster : BurstDetector) :
    (service.setBurster agentId burster).agent other = service.agent other := by
  simp only [Service.agent, Service.setBurster, Function.update_of_ne h.symm]
  rfl

/-- The detectors after an event are those of the agent's part. -/
theorem isBurst_observe :
    ((service.observe env event).bursters event.agentId).isBurst =
      ((service.agent event.agentId).observe env event).burster.isBurst := by
  rw [← agent_observe_self]
  rfl

/-- Whether an event is anomalous depends on its agent's part only. -/
theorem isAnomalous_observe :
    ((service.observe env event).scorers event.agentId).isAnomalous env event =
      ((service.agent event.agentId).observe env event).scorer.isAnomalous env event := by
  rw [← agent_observe_self]
  rfl

/-- The three ways of handling an event, by what is seen from the part of its agent. -/
theorem handled_eq (env : Environment) (service : Service) (event : AuditEvent) :
    service.handled env event =
      let observed := service.observe env event
      let state := (service.agent event.agentId).observe env event
      if state.burster.isBurst then
        ({ observed with burstDetections := observed.burstDetections + 1 }.mark
          event.agentId).setBurster event.agentId state.burster.reset
      else if state.scorer.isAnomalous env event then
        { observed with suspensions := observed.suspensions + 1 }.mark event.agentId
      else observed := by
  rw [Service.handled, isBurst_observe, isAnomalous_observe]
  simp only [Service.setBurster, mark_bursters]
  rw [← agent_observe_self]
  rfl

/-- What an event does to the part of its agent. -/
theorem agent_handled_self :
    (service.handled env event).agent event.agentId =
      (service.agent event.agentId).handled env event := by
  rw [handled_eq, AgentState.handled]
  by_cases hb : ((service.agent event.agentId).observe env event).burster.isBurst = true
  · simp only [hb, if_true, agent_setBurster_self, agent_mark_self]
    rw [← agent_observe_self]
    rfl
  · by_cases ha : ((service.agent event.agentId).observe env event).scorer.isAnomalous env event
        = true
    · simp only [hb, ha, Bool.false_eq_true, if_false, if_true, agent_mark_self]
      rw [← agent_observe_self]
      rfl
    · simp only [hb, ha, Bool.false_eq_true, if_false]
      exact agent_observe_self

/-- An event leaves the parts of the other agents as they are. -/
theorem agent_handled_ne (h : event.agentId ≠ agentId) :
    (service.handled env event).agent agentId = service.agent agentId := by
  have ho : (service.observe env event).agent agentId = service.agent agentId :=
    agent_observe_ne h
  rw [handled_eq, ← ho]
  by_cases hb : ((service.agent event.agentId).observe env event).burster.isBurst = true
  · simp only [hb, if_true, agent_setBurster_ne h, agent_mark_ne h]
    rfl
  · by_cases ha : ((service.agent event.agentId).observe env event).scorer.isAnomalous env event
        = true
    · simp only [hb, ha, Bool.false_eq_true, if_false, if_true, agent_mark_ne h]
      rfl
    · simp only [hb, ha, Bool.false_eq_true, if_false]

/-- What an event adds to the counters is seen from its own agent. -/
theorem counters_handled (env : Environment) (service : Service) (event : AuditEvent) :
    (service.handled env event).counters =
      service.counters + (service.agent event.agentId).counted env event := by
  rw [handled_eq, AgentState.counted]
  by_cases hb : ((service.agent event.agentId).observe env event).burster.isBurst = true
  · simp only [hb, if_true]
    show (Service.mark _ _).counters = _
    rw [counters_mark]
    rfl
  · by_cases ha : ((service.agent event.agentId).observe env event).scorer.isAnomalous env event
        = true
    · simp only [hb, ha, Bool.false_eq_true, if_false, if_true, counters_mark]
      rfl
    · simp only [hb, ha, Bool.false_eq_true, if_false]
      rfl

end

/-- The service as a machine with a part for each agent. -/
def agents (env : Environment) :
    Keyed Service AuditEvent String AgentState (Nat × Nat × Nat) where
  step service event := service.handled env event
  key event := event.agentId
  part := Service.agent
  total := Service.counters
  own state event := state.handled env event
  amount state event := state.counted env event
  part_step service event agentId := by
    split
    · next h => rw [← h, agent_handled_self]
    · next h => exact agent_handled_ne h
  total_step := counters_handled env

/-! ### Streams -/

/-- The loop of `_consume_kafka`, `service.py:72`, on valid events. -/
def consume (env : Environment) : List AuditEvent → Coroutine Unit
  | [] => pure ()
  | event :: events => do
    Py.handle (processEvent env event) fun _ ↦ pure ()
    consume env events

/-- A guarded event is handled, whatever comes of a POST. -/
theorem handle_processEvent_run {env : Environment} {event : AuditEvent}
    {service service' : Service} {t : List ServiceEvent} {out : Except String Unit}
    (h : Py.Run (Py.handle (processEvent env event) fun _ ↦ pure ()) service t out service') :
    out = .ok () ∧ service' = service.handled env event := by
  rw [Py.run_handle] at h
  rcases h with ⟨a, h, rfl⟩ | ⟨e, t₁, t₂, s₁, rfl, h, -⟩
  · exact ⟨rfl, (processEvent_run.mp h).2.1⟩
  · cases (processEvent_run.mp h).1

/-- A stream is handled event by event, whatever comes of the POSTs. -/
theorem consume_run {env : Environment} {events : List AuditEvent} {service service' : Service}
    {t : List ServiceEvent} {out : Except String Unit}
    (h : Py.Run (consume env events) service t out service') :
    out = .ok () ∧ service' = (agents env).run service events := by
  induction events generalizing service t with
  | nil =>
    rw [consume, Py.run_pure] at h
    exact ⟨h.2.1, h.2.2⟩
  | cons event events ih =>
    rw [consume, Py.run_bind] at h
    rcases h with ⟨e, h, -⟩ | ⟨_, t₁, t₂, s₁, rfl, h, h'⟩
    · cases (handle_processEvent_run h).1
    · obtain ⟨-, rfl⟩ := handle_processEvent_run h
      exact ih h'

/-- Agents apart: a stream is consumed to its end; what is held for an agent then is what
it is after that agent's own events; and exchanging two neighbouring events of different
agents changes nothing for any agent nor the counters. -/
structure Isolated (env : Environment) (service : Service) (events : List AuditEvent) : Prop where
  consumed : ∃ t service', Py.Run (consume env events) service t (.ok ()) service'
  own : ∀ agentId t t' out out' after after', Py.Run (consume env events) service t out after →
    Py.Run (consume env (events.filter (·.agentId = agentId))) service t' out' after' →
    after.agent agentId = after'.agent agentId
  commute : ∀ before event event' rest, events = before ++ event :: event' :: rest →
    event.agentId ≠ event'.agentId → ∀ t t' out out' after after',
    Py.Run (consume env events) service t out after →
    Py.Run (consume env (before ++ event' :: event :: rest)) service t' out' after' →
    (∀ agentId, after.agent agentId = after'.agent agentId) ∧ after.counters = after'.counters

/-- On every stream and from every state the agents are apart. -/
theorem consume_isolated (env : Environment) (service : Service) (events : List AuditEvent) :
    Isolated env service events := by
  constructor
  · have hr := Py.run_exec (fun _ (c : ServiceCall) ↦
      (c.casesOn (0 : Nat) fun _ _ ↦ .ok 200 : c.Reply)) (consume env events) service
    have ho := (consume_run hr).1
    rw [ho] at hr
    exact ⟨_, _, hr⟩
  · intro agentId t t' out out' after after' h h'
    rw [(consume_run h).2, (consume_run h').2]
    exact ((agents env).part_run_ofKey service events agentId).symm
  · rintro before event event' rest rfl hn t t' out out' after after' h h'
    rw [(consume_run h).2, (consume_run h').2]
    have hs := (agents env).same_run_swap hn service before rest
    exact ⟨hs.part, hs.total⟩

end NhiSentinel.Anomaly
