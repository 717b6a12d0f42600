import NhiSentinel.Anomaly.Burst
import NhiSentinel.Anomaly.Counter

/-!
# Scores on request

`score_event` of `anomaly/service.py` beside the stream of events. A request is counted by the
burst detector of its agent as an event is, so it can bring a suspension forward. Requests are
taken between events, and while a suspension is posted.
-/

namespace NhiSentinel.Anomaly
open NhiSentinel.Base NhiSentinel.Audit

/-- What the service takes: an event of the stream, with the requests that come while its
suspension is posted, or a request. -/
inductive Input where
  | event (event : AuditEvent) (during : List AuditEvent)
  | score (event : AuditEvent)

/-- The events of the stream. -/
def eventsOf (inputs : List Input) : List AuditEvent :=
  inputs.flatMap fun
    | .event event _ => [event]
    | .score _ => []

/-- The events of the requests. -/
def requestsOf (inputs : List Input) : List AuditEvent :=
  inputs.flatMap fun
    | .event _ during => during
    | .score event => [event]

/-- How many events are of an agent. -/
def ofAgent (agentId : String) (events : List AuditEvent) : Nat :=
  events.countP (·.agentId = agentId)

section
variable (env : Environment)

/-- The service after requests. -/
def Service.scored (service : Service) (events : List AuditEvent) : Service :=
  events.foldl (fun service event ↦ (service.scoreEvent env event).2) service

/-- The service while the suspension for an event is posted: all of `_process_event` but the start
of a new count, `service.py:88–127`. -/
def Service.started (service : Service) (event : AuditEvent) : Service :=
  let observed := service.observe env event
  if service.Bursts env event then
    { observed with burstDetections := observed.burstDetections + 1 }.mark event.agentId
  else if service.Deviates env event then
    { observed with suspensions := observed.suspensions + 1 }.mark event.agentId
  else observed

/-- The rest of `_process_event`: after a burst the count starts anew, `service.py:120`. -/
def Service.finished (service : Service) (burst : Bool) (agentId : String) : Service :=
  if burst then service.setBurster agentId (service.bursters agentId).reset else service

/-- The service after an input. -/
def Service.takes (service : Service) : Input → Service
  | .event event during =>
    ((service.started env event).scored env during).finished
      (service.Bursts env event) event.agentId
  | .score event => (service.scoreEvent env event).2

/-- The service after inputs, from its start. -/
def afterInputs (inputs : List Input) : Service := inputs.foldl (Service.takes env) .new

variable {env} {service : Service} {event : AuditEvent}

/-- Without requests in between, an event is handled. -/
theorem takes_event_nil (env : Environment) (service : Service) (event : AuditEvent) :
    service.takes env (.event event []) = service.handled env event := by
  show (service.started env event).finished (service.Bursts env event) event.agentId = _
  rw [Service.handled, Service.started]
  by_cases hb : service.Bursts env event
  · have hb' : ((service.observe env event).bursters event.agentId).isBurst = true := hb
    simp only [hb, if_true, Service.finished, decide_true]
    rw [if_pos hb', Service.setBurster, mark_bursters]
  · have hb' : ¬ ((service.observe env event).bursters event.agentId).isBurst = true := hb
    simp only [hb, if_false, Service.finished, decide_false, Bool.false_eq_true]
    rw [if_neg hb']
    by_cases ha : ((service.observe env event).scorers event.agentId).isAnomalous env event = true
    · rw [if_pos ha, if_pos ⟨hb, ha⟩]
    · rw [if_neg ha, if_neg fun hd ↦ ha hd.2]

/-! ### What an input changes -/

/-- Two services hold the same detectors and histories for every agent. -/
structure SameDetectors (a b : Service) : Prop where
  scorers : a.scorers = b.scorers
  histories : a.histories = b.histories
  bursters : a.bursters = b.bursters

private theorem sameDetectors_mark (service : Service) (agentId : String) :
    SameDetectors (service.mark agentId) service := by
  rw [Service.mark]
  split <;> exact ⟨rfl, rfl, rfl⟩

variable (env) in
private theorem sameDetectors_started (service : Service) (event : AuditEvent) :
    SameDetectors (service.started env event) (service.observe env event) := by
  rw [Service.started]
  split
  · exact ⟨(sameDetectors_mark ..).scorers, (sameDetectors_mark ..).histories,
      (sameDetectors_mark ..).bursters⟩
  · split
    · exact ⟨(sameDetectors_mark ..).scorers, (sameDetectors_mark ..).histories,
        (sameDetectors_mark ..).bursters⟩
    · exact ⟨rfl, rfl, rfl⟩

private theorem mem_started {agentId : String} :
    agentId ∈ (service.started env event).suspended ↔
      (agentId = event.agentId ∧ service.Breaches env event) ∨ agentId ∈ service.suspended := by
  rw [← mem_handled, ← takes_event_nil]
  show _ ↔ agentId ∈ ((service.started env event).finished _ _).suspended
  rw [Service.finished]
  split <;> rfl

private theorem scored_eq (service : Service) (events : List AuditEvent) :
    service.scored env events = { service with
      bursters := fun agentId ↦
        (service.bursters agentId).recordMany (ofAgent agentId events) } := by
  induction events generalizing service with
  | nil => rfl
  | cons event events ih =>
    rw [Service.scored, List.foldl_cons]
    show ((service.scoreEvent env event).2).scored env events = _
    rw [ih]
    have hb : ∀ agentId, ((service.scoreEvent env event).2.bursters agentId).recordMany
        (ofAgent agentId events) =
          (service.bursters agentId).recordMany (ofAgent agentId (event :: events)) := by
      intro agentId
      show (Function.update service.bursters event.agentId
        (service.bursters event.agentId).record agentId).recordMany _ = _
      rw [ofAgent, ofAgent, List.countP_cons]
      by_cases h : event.agentId = agentId
      · subst h
        rw [Function.update_self, if_pos (decide_eq_true rfl), BurstDetector.recordMany,
          BurstDetector.recordMany, BurstDetector.record]
        simp only [BurstDetector.mk.injEq, true_and]
        omega
      · rw [Function.update_of_ne (Ne.symm h), if_neg (fun hd ↦ h (of_decide_eq_true hd)),
          Nat.add_zero]
    simp only [hb]
    rfl

private theorem observe_bursters_eq (service : Service) (event : AuditEvent) (agentId : String) :
    (service.observe env event).bursters agentId =
      (service.bursters agentId).recordMany (ofAgent agentId [event]) := by
  show Function.update service.bursters event.agentId
    (service.bursters event.agentId).record agentId = _
  rw [ofAgent, List.countP_singleton]
  by_cases h : event.agentId = agentId
  · subst h
    rw [Function.update_self, if_pos (decide_eq_true rfl)]
    rfl
  · rw [Function.update_of_ne (Ne.symm h), if_neg (fun hd ↦ h (of_decide_eq_true hd))]
    rfl

private theorem mem_takes_event {during : List AuditEvent} {agentId : String} :
    agentId ∈ (service.takes env (.event event during)).suspended ↔
      (agentId = event.agentId ∧ service.Breaches env event) ∨ agentId ∈ service.suspended := by
  rw [← mem_started, Service.takes, scored_eq, Service.finished]
  split <;> rfl

private theorem bursters_takes_event {during : List AuditEvent} {agentId : String}
    (h : event.agentId = agentId → ¬ service.Bursts env event) :
    (service.takes env (.event event during)).bursters agentId =
      (service.bursters agentId).recordMany
        (ofAgent agentId [event] + ofAgent agentId during) := by
  have hs : ((service.started env event).scored env during).bursters agentId =
      (service.bursters agentId).recordMany
        (ofAgent agentId [event] + ofAgent agentId during) := by
    rw [scored_eq]
    show ((service.started env event).bursters agentId).recordMany _ = _
    rw [(sameDetectors_started env service event).bursters, observe_bursters_eq]
    simp only [BurstDetector.recordMany, Nat.add_assoc]
  rw [Service.takes, Service.finished]
  split
  · next hb =>
    have hn : event.agentId ≠ agentId := fun he ↦ h he (of_decide_eq_true hb)
    rw [← hs]
    exact Function.update_of_ne hn.symm ..
  · exact hs

private theorem scorers_takes_event (during : List AuditEvent) :
    (service.takes env (.event event during)).scorers = (service.observe env event).scorers ∧
      (service.takes env (.event event during)).histories =
        (service.observe env event).histories := by
  have hs := sameDetectors_started env service event
  rw [Service.takes, scored_eq, Service.finished]
  split <;> exact ⟨hs.scorers, hs.histories⟩

/-! ### Two runs -/

private theorem afterInputs_concat (inputs : List Input) (input : Input) :
    afterInputs env (inputs ++ [input]) = (afterInputs env inputs).takes env input :=
  List.foldl_concat ..

private theorem run_eventsOf_concat (inputs : List Input) (event : AuditEvent)
    (during : List AuditEvent) :
    (agents env).run .new (eventsOf (inputs ++ [.event event during])) =
      ((agents env).run .new (eventsOf inputs)).takes env (.event event []) := by
  rw [takes_event_nil, eventsOf, List.flatMap_append]
  exact List.foldl_concat ..

/-- The run with the requests and the run without have suspended the same agents; they hold the
same but for the counts of bursts, where the requests are added. -/
structure Agrees (env : Environment) (inputs : List Input) : Prop where
  scorers : (afterInputs env inputs).scorers =
    ((agents env).run .new (eventsOf inputs)).scorers
  histories : (afterInputs env inputs).histories =
    ((agents env).run .new (eventsOf inputs)).histories
  suspended : ∀ agentId, agentId ∈ (afterInputs env inputs).suspended ↔
    agentId ∈ ((agents env).run .new (eventsOf inputs)).suspended
  counted : ∀ agentId, agentId ∉ ((agents env).run .new (eventsOf inputs)).suspended →
    (afterInputs env inputs).bursters agentId = {
      count := ofAgent agentId (eventsOf inputs) + ofAgent agentId (requestsOf inputs) } ∧
    ((agents env).run .new (eventsOf inputs)).bursters agentId = {
      count := ofAgent agentId (eventsOf inputs) }

variable {inputs : List Input}

private theorem ofAgent_append (agentId : String) (a b : List AuditEvent) :
    ofAgent agentId (a ++ b) = ofAgent agentId a + ofAgent agentId b := List.countP_append ..

private theorem agrees_nil : Agrees env [] :=
  ⟨rfl, rfl, fun _ ↦ Iff.rfl, fun _ _ ↦ ⟨rfl, rfl⟩⟩

private theorem Agrees.score (h : Agrees env inputs) (event : AuditEvent) :
    Agrees env (inputs ++ [.score event]) := by
  have he : eventsOf (inputs ++ [.score event]) = eventsOf inputs := by
    rw [eventsOf, List.flatMap_append]
    exact List.append_nil _
  have hr : requestsOf (inputs ++ [.score event]) = requestsOf inputs ++ [event] := by
    rw [requestsOf, List.flatMap_append]
    rfl
  have ha : afterInputs env (inputs ++ [.score event]) =
      (afterInputs env inputs).scored env [event] := afterInputs_concat ..
  rw [scored_eq] at ha
  constructor
  · rw [ha, he]
    exact h.scorers
  · rw [ha, he]
    exact h.histories
  · rw [ha, he]
    exact h.suspended
  · rw [ha, he, hr]
    intro agentId hn
    refine ⟨?_, (h.counted agentId hn).2⟩
    show ((afterInputs env inputs).bursters agentId).recordMany _ = _
    rw [(h.counted agentId hn).1, ofAgent_append, BurstDetector.recordMany, Nat.add_assoc]

private theorem Agrees.isAnomalous (h : Agrees env inputs) (event : AuditEvent) :
    (((afterInputs env inputs).observe env event).scorers event.agentId).isAnomalous env event =
      ((((agents env).run .new (eventsOf inputs)).observe env event).scorers
        event.agentId).isAnomalous env event := by
  simp only [Service.observe, h.scorers, h.histories]

private theorem bursts_iff {n : Nat} (h : service.bursters event.agentId = { count := n }) :
    service.Bursts env event ↔ Exceeds (n + 1) := by
  rw [Service.Bursts, observe_bursters, h]
  rfl

/-- After an event the same agents are suspended exactly when its requests do not bring a
suspension forward. -/
theorem Agrees.suspended_event_iff (h : Agrees env inputs) (event : AuditEvent)
    (during : List AuditEvent) :
    (∀ agentId, agentId ∈ (afterInputs env (inputs ++ [.event event during])).suspended ↔
      agentId ∈ ((agents env).run .new
        (eventsOf (inputs ++ [.event event during]))).suspended) ↔
    (event.agentId ∉ ((agents env).run .new
        (eventsOf (inputs ++ [.event event during]))).suspended →
      ¬ Exceeds (ofAgent event.agentId (eventsOf inputs) +
        ofAgent event.agentId (requestsOf inputs) + 1)) := by
  simp only [afterInputs_concat, run_eventsOf_concat, mem_takes_event, true_and]
  have hanomalous := h.isAnomalous event
  constructor
  · intro hs hn hx
    have hn' := not_or.mp hn
    have hc := h.counted event.agentId hn'.2
    have hb : (afterInputs env inputs).Breaches env event := .inl ((bursts_iff hc.1).mpr hx)
    rcases (hs event.agentId).mp (.inl ⟨rfl, hb⟩) with ⟨-, hb'⟩ | hm
    · exact hn'.1 hb'
    · exact hn'.2 hm
  · intro hc agentId
    constructor
    · rintro (⟨rfl, hb⟩ | hm)
      · by_contra hn
        have hn' : ¬ (((agents env).run .new (eventsOf inputs)).Breaches env event ∨
            event.agentId ∈ ((agents env).run .new (eventsOf inputs)).suspended) :=
          fun hm ↦ hn (hm.imp_left fun hb ↦ ⟨rfl, hb⟩)
        have hcount := h.counted event.agentId (not_or.mp hn').2
        rcases hb with hb | ha
        · exact hc hn' ((bursts_iff hcount.1).mp hb)
        · exact hn' (.inl (.inr (hanomalous.symm.trans ha)))
      · exact .inr ((h.suspended agentId).mp hm)
    · rintro (⟨rfl, hb⟩ | hm)
      · by_cases hm : event.agentId ∈ ((agents env).run .new (eventsOf inputs)).suspended
        · exact .inr ((h.suspended event.agentId).mpr hm)
        · have hcount := h.counted event.agentId hm
          have hle : ofAgent event.agentId (eventsOf inputs) + 1 ≤
              ofAgent event.agentId (eventsOf inputs) +
                ofAgent event.agentId (requestsOf inputs) + 1 := by
            omega
          refine .inl ⟨rfl, ?_⟩
          rcases hb with hb | ha
          · have hx := (bursts_iff hcount.2).mp hb
            exact .inl ((bursts_iff hcount.1).mpr (hx.mono hle))
          · exact .inr (hanomalous.trans ha)
      · exact .inr ((h.suspended agentId).mpr hm)

/-- Where an event suspends the same agents, the agreement is kept. -/
theorem Agrees.takes_event (h : Agrees env inputs) {event : AuditEvent}
    {during : List AuditEvent}
    (hs : ∀ agentId, agentId ∈ (afterInputs env (inputs ++ [.event event during])).suspended ↔
      agentId ∈ ((agents env).run .new
        (eventsOf (inputs ++ [.event event during]))).suspended) :
    Agrees env (inputs ++ [.event event during]) := by
  have hscorers : ((afterInputs env inputs).observe env event).scorers =
      (((agents env).run .new (eventsOf inputs)).observe env event).scorers := by
    simp only [Service.observe, h.scorers, h.histories]
  have hhistories : ((afterInputs env inputs).observe env event).histories =
      (((agents env).run .new (eventsOf inputs)).observe env event).histories := by
    simp only [Service.observe, h.histories]
  have he : eventsOf (inputs ++ [.event event during]) = eventsOf inputs ++ [event] := by
    rw [eventsOf, List.flatMap_append]
    rfl
  have hr : requestsOf (inputs ++ [.event event during]) = requestsOf inputs ++ during := by
    rw [requestsOf, List.flatMap_append]
    exact congrArg _ (List.append_nil _)
  refine ⟨?_, ?_, hs, ?_⟩
  · rw [afterInputs_concat, run_eventsOf_concat, (scorers_takes_event during).1,
      (scorers_takes_event []).1, hscorers]
  · rw [afterInputs_concat, run_eventsOf_concat, (scorers_takes_event during).2,
      (scorers_takes_event []).2, hhistories]
  · intro agentId hn
    have hn' := (not_congr (hs agentId)).mpr hn
    rw [afterInputs_concat, mem_takes_event, not_or, not_and] at hn'
    rw [run_eventsOf_concat, mem_takes_event, not_or, not_and] at hn
    obtain ⟨hc, hc'⟩ := h.counted agentId hn.2
    rw [afterInputs_concat, run_eventsOf_concat, he, hr, ofAgent_append, ofAgent_append,
      bursters_takes_event fun ha hb ↦ hn'.1 ha.symm (.inl hb),
      bursters_takes_event fun ha hb ↦ hn.1 ha.symm (.inl hb), hc, hc']
    refine ⟨?_, rfl⟩
    simp only [BurstDetector.recordMany, BurstDetector.mk.injEq, true_and]
    omega

/-- After each input the same agents are suspended as if there had been no requests. -/
def Undisturbed (env : Environment) (inputs : List Input) : Prop :=
  ∀ before, before <+: inputs → ∀ agentId, agentId ∈ (afterInputs env before).suspended ↔
    agentId ∈ ((agents env).run .new (eventsOf before)).suspended

private theorem agrees_of_undisturbed {before : List Input} (hp : before <+: inputs)
    (h : Undisturbed env inputs) : Agrees env before := by
  induction before using List.reverseRecOn with
  | nil => exact agrees_nil
  | append_singleton before input ih =>
    have ha := ih ((List.prefix_append before [input]).trans hp)
    cases input with
    | event event during => exact ha.takes_event (h _ hp)
    | score event => exact ha.score event

/-- An agent is suspended by the stream alone when it has had more events than the limit, or a
score at the threshold. -/
theorem mem_suspended_run_iff (before : List Input) (event : AuditEvent)
    (during : List AuditEvent) :
    event.agentId ∉ ((agents env).run .new
        (eventsOf (before ++ [.event event during]))).suspended ↔
      ¬ Exceeds (ofAgent event.agentId (eventsOf before) + 1) ∧
        ¬ ScoreReached env (eventsOf before ++ [event]) event.agentId := by
  have he : eventsOf (before ++ [.event event during]) = eventsOf before ++ [event] := by
    rw [eventsOf, List.flatMap_append]
    rfl
  have hl : ((agents env).ofKey event.agentId (eventsOf before ++ [event])).length =
      ofAgent event.agentId (eventsOf before) + 1 := by
    rw [Keyed.ofKey, ← List.countP_eq_length_filter, List.countP_append, List.countP_singleton]
    exact congrArg _ (if_pos (decide_eq_true rfl))
  rw [he, mem_suspended_iff_exceeds, hl, not_or]

/-- The requests disturb nothing exactly when, at each event of an agent that has had no more
events than the limit and no score at the threshold, its events and requests together are within
the limit. -/
theorem undisturbed_iff (env : Environment) (inputs : List Input) :
    Undisturbed env inputs ↔ ∀ before event during,
      before ++ [.event event during] <+: inputs →
        ¬ Exceeds (ofAgent event.agentId (eventsOf before) + 1) →
          ¬ ScoreReached env (eventsOf before ++ [event]) event.agentId →
            ¬ Exceeds (ofAgent event.agentId (eventsOf before) +
              ofAgent event.agentId (requestsOf before) + 1) := by
  constructor
  · intro h before event during hp hx hs
    have ha := agrees_of_undisturbed ((List.prefix_append before _).trans hp) h
    exact (ha.suspended_event_iff event during).mp (h _ hp)
      ((mem_suspended_run_iff before event during).mpr ⟨hx, hs⟩)
  · intro h before hp
    have ha : Agrees env before := by
      induction before using List.reverseRecOn with
      | nil => exact agrees_nil
      | append_singleton before input ih =>
        have ha := ih ((List.prefix_append before [input]).trans hp)
        cases input with
        | event event during =>
          refine ha.takes_event ((ha.suspended_event_iff event during).mpr fun hn ↦ ?_)
          obtain ⟨hx, hs⟩ := (mem_suspended_run_iff before event during).mp hn
          exact h before event during hp hx hs
        | score event => exact ha.score event
    exact ha.suspended

end

/-- Ten requests about listings, and a listing. -/
def requestsFirst : List Input := List.replicate 10 (.score listing) ++ [.event listing []]

/-- The one event of the stream suspends its agent, which it does not without the requests. -/
theorem requestsFirst_disturb :
    (afterInputs unmoved requestsFirst).suspended = ["agent-infra-001"] ∧
      ((agents unmoved).run .new (eventsOf requestsFirst)).suspended = [] ∧
        ¬ Undisturbed unmoved requestsFirst := by
  have hs : (afterInputs unmoved requestsFirst).suspended = ["agent-infra-001"] := by
    decide +kernel
  have hn : ((agents unmoved).run .new (eventsOf requestsFirst)).suspended = [] := by
    decide +kernel
  refine ⟨hs, hn, fun h ↦ ?_⟩
  have hm := h requestsFirst (List.prefix_refl _) "agent-infra-001"
  rw [hs, hn] at hm
  exact absurd (hm.mp List.mem_cons_self) List.not_mem_nil

end NhiSentinel.Anomaly
