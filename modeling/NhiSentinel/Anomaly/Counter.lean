import NhiSentinel.Anomaly.Window

/-!
# The count of suspensions

`_suspensions` of `anomaly/service.py`, exported as `nhi_suspended_identities_total`, against the
agents that the service has suspended. A suspension for a burst is not counted, and an anomaly of
an agent that is suspended already is counted again.
-/

namespace NhiSentinel.Anomaly
open NhiSentinel.Base NhiSentinel.Audit

section
variable (env : Environment)

/-- With the event, the burst detector of its agent fires. -/
def Service.Bursts (service : Service) (event : AuditEvent) : Prop :=
  ((service.observe env event).bursters event.agentId).isBurst = true

/-- With the event, the score of its agent reaches the threshold, and there is no burst. -/
def Service.Deviates (service : Service) (event : AuditEvent) : Prop :=
  ¬ service.Bursts env event ∧
    ((service.observe env event).scorers event.agentId).isAnomalous env event = true

instance (service : Service) (event : AuditEvent) : Decidable (service.Bursts env event) :=
  inferInstanceAs (Decidable (_ = true))

instance (service : Service) (event : AuditEvent) : Decidable (service.Deviates env event) :=
  inferInstanceAs (Decidable (_ ∧ _))

/-- A burst is one of an agent that is suspended already, and an anomaly one of an agent that is
not. -/
structure Service.CountedOnce (service : Service) (event : AuditEvent) : Prop where
  burst : service.Bursts env event → event.agentId ∈ service.suspended
  anomaly : service.Deviates env event → event.agentId ∉ service.suspended

/-- The count is the number of agents that were suspended. -/
def Service.Accounted (service : Service) : Prop :=
  service.suspensions = service.suspended.length

instance (service : Service) : Decidable service.Accounted := inferInstanceAs (Decidable (_ = _))

variable {env} {service : Service} {event : AuditEvent} {agentId : String}

/-! ### One event -/

/-- Marking an agent counts no suspension. -/
@[simp] theorem suspensions_mark : (service.mark agentId).suspensions = service.suspensions := by
  rw [Service.mark]
  split <;> rfl

private theorem suspended_mark : (service.mark agentId).suspended =
    if agentId ∈ service.suspended then service.suspended else agentId :: service.suspended := by
  rw [Service.mark]
  split <;> rfl

private theorem suspended_mark_congr {service' : Service}
    (h : service.suspended = service'.suspended) :
    (service.mark agentId).suspended = (service'.mark agentId).suspended := by
  rw [suspended_mark, suspended_mark, h]

/-- What an event adds to the count. -/
theorem suspensions_handled (env : Environment) (service : Service) (event : AuditEvent) :
    (service.handled env event).suspensions =
      service.suspensions + if service.Deviates env event then 1 else 0 := by
  rw [Service.handled]
  by_cases hb : ((service.observe env event).bursters event.agentId).isBurst = true
  · have hd : ¬ service.Deviates env event := fun h ↦ h.1 hb
    rw [if_pos hb, if_neg hd]
    exact suspensions_mark
  · rw [if_neg hb]
    by_cases ha : ((service.observe env event).scorers event.agentId).isAnomalous env event = true
    · have hd : service.Deviates env event := ⟨hb, ha⟩
      rw [if_pos ha, if_pos hd]
      exact suspensions_mark
    · have hd : ¬ service.Deviates env event := fun h ↦ ha h.2
      rw [if_neg ha, if_neg hd]
      rfl

/-- Whom an event adds to the suspended agents. -/
theorem suspended_handled_eq (env : Environment) (service : Service) (event : AuditEvent) :
    (service.handled env event).suspended =
      if service.Bursts env event ∨ service.Deviates env event then
        (service.mark event.agentId).suspended
      else service.suspended := by
  rw [Service.handled]
  by_cases hb : ((service.observe env event).bursters event.agentId).isBurst = true
  · have hs : service.Bursts env event := hb
    rw [if_pos hb, if_pos (.inl hs)]
    exact suspended_mark_congr rfl
  · have hs : ¬ service.Bursts env event := hb
    rw [if_neg hb]
    by_cases ha : ((service.observe env event).scorers event.agentId).isAnomalous env event = true
    · have hd : service.Deviates env event := ⟨hb, ha⟩
      rw [if_pos ha, if_pos (.inr hd)]
      exact suspended_mark_congr rfl
    · have hd : ¬ service.Deviates env event := fun h ↦ ha h.2
      rw [if_neg ha, if_neg (not_or_intro hs hd)]
      rfl

/-- An event keeps the account exactly when it is counted once. -/
theorem accounted_handled_iff (h : service.Accounted) :
    (service.handled env event).Accounted ↔ service.CountedOnce env event := by
  have hs : service.suspensions = service.suspended.length := h
  rw [Service.Accounted, suspensions_handled, suspended_handled_eq, suspended_mark, hs]
  by_cases hb : service.Bursts env event
  · have hd : ¬ service.Deviates env event := fun h ↦ h.1 hb
    rw [if_neg hd, if_pos (.inl hb)]
    constructor
    · intro he
      refine ⟨fun _ ↦ ?_, fun h ↦ absurd h hd⟩
      by_contra hm
      rw [if_neg hm, List.length_cons] at he
      omega
    · intro hc
      rw [if_pos (hc.burst hb)]
      rfl
  · by_cases hd : service.Deviates env event
    · rw [if_pos hd, if_pos (.inr hd)]
      constructor
      · intro he
        refine ⟨fun h ↦ absurd h hb, fun _ hm ↦ ?_⟩
        rw [if_pos hm] at he
        omega
      · intro hc
        rw [if_neg (hc.anomaly hd)]
        rfl
    · rw [if_neg hd, if_neg (not_or_intro hb hd)]
      exact iff_of_true rfl ⟨fun h ↦ absurd h hb, fun h ↦ absurd h hd⟩

end

/-! ### Streams -/

section
variable {env : Environment} {events : List AuditEvent}

private theorem run_concat (before : List AuditEvent) (event : AuditEvent) :
    (agents env).run .new (before ++ [event]) =
      ((agents env).run .new before).handled env event := List.foldl_concat ..

/-- In every state of a stream the agents that were suspended are counted. -/
def CountsSuspensions (env : Environment) (events : List AuditEvent) : Prop :=
  ∀ before, before <+: events → ∀ t out service,
    Py.Run (consume env before) .new t out service → service.Accounted

/-- The count is that of the agents suspended, all along a stream, exactly when each of its events
is counted once. -/
theorem countsSuspensions_iff (env : Environment) (events : List AuditEvent) :
    CountsSuspensions env events ↔ ∀ before event, before ++ [event] <+: events →
      ((agents env).run .new before).CountedOnce env event := by
  have hrun : CountsSuspensions env events ↔
      ∀ before, before <+: events → ((agents env).run .new before).Accounted := by
    constructor
    · intro h before hp
      obtain ⟨t, service, hr⟩ := (consume_isolated env .new before).consumed
      rw [← (consume_run hr).2]
      exact h before hp t _ service hr
    · intro h before hp t out service hr
      rw [(consume_run hr).2]
      exact h before hp
  rw [hrun]
  constructor
  · intro h before event hp
    have hb := h before ((List.prefix_append before [event]).trans hp)
    have ha := h _ hp
    rw [run_concat] at ha
    exact (accounted_handled_iff hb).mp ha
  · intro h before
    induction before using List.reverseRecOn with
    | nil => exact fun _ ↦ rfl
    | append_singleton before event ih =>
      intro hp
      rw [run_concat, accounted_handled_iff (ih ((List.prefix_append before [event]).trans hp))]
      exact h before event hp

end

/-- A burst of eleven listings suspends an agent that is not counted. -/
theorem burst_uncounted :
    ((agents unmoved).run .new (List.replicate 11 listing)).suspended = ["agent-infra-001"] ∧
      ((agents unmoved).run .new (List.replicate 11 listing)).suspensions = 0 ∧
        ¬ CountsSuspensions unmoved (List.replicate 11 listing) := by
  have hs : ((agents unmoved).run .new (List.replicate 11 listing)).suspended =
      ["agent-infra-001"] := by
    decide +kernel
  have hn : ((agents unmoved).run .new (List.replicate 11 listing)).suspensions = 0 := by
    decide +kernel
  refine ⟨hs, hn, fun h ↦ ?_⟩
  obtain ⟨t, service, hr⟩ := (consume_isolated unmoved .new (List.replicate 11 listing)).consumed
  have ha := h _ (List.prefix_refl _) t _ service hr
  rw [(consume_run hr).2, Service.Accounted, hs, hn] at ha
  cases ha

end NhiSentinel.Anomaly
