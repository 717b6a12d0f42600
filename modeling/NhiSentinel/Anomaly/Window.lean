import NhiSentinel.Anomaly.Isolation

/-!
# Bursts over time

The burst detector against a rate: the service counts an agent's events since it started or
since the last burst, whenever they arrive, so a window of time bounds its verdict only
where it holds all of them.
-/

namespace NhiSentinel.Anomaly
open NhiSentinel.Base NhiSentinel.Audit

/-- Events in the order in which they arrive, with the time of arrival in microseconds. -/
structure TimedStream where
  arrivals : List (Nat × AuditEvent)
  sorted : arrivals.Pairwise fun x y ↦ x.1 ≤ y.1

namespace TimedStream

/-- The events of the stream. -/
def events (stream : TimedStream) : List AuditEvent := stream.arrivals.map Prod.snd

/-- The number of events of an agent. -/
def total (stream : TimedStream) (agentId : String) : Nat :=
  stream.arrivals.countP fun x ↦ x.2.agentId = agentId

/-- The number of events of an agent in a window of time. -/
def within (stream : TimedStream) (agentId : String) (start length : Nat) : Nat :=
  stream.arrivals.countP fun x ↦
    x.2.agentId = agentId ∧ start ≤ x.1 ∧ x.1 < start + length

private theorem within_le_total (stream : TimedStream) (agentId : String) (start length : Nat) :
    stream.within agentId start length ≤ stream.total agentId := by
  apply List.countP_mono_left
  intro x _ h
  rw [decide_eq_true_eq] at h ⊢
  exact h.1

private theorem length_ofKey (env : Environment) (stream : TimedStream) (agentId : String) :
    ((agents env).ofKey agentId stream.events).length = stream.total agentId := by
  rw [Keyed.ofKey, events, ← List.countP_eq_length_filter, List.countP_map]
  rfl

end TimedStream

/-- More events than the detectors of the service allow, `baseline * threshold`. -/
def Exceeds (n : Nat) : Prop := ({ count := n } : BurstDetector).isBurst = true

/-- More than ten events exceed the limit. -/
theorem exceeds_iff (n : Nat) : Exceeds n ↔ 10 < n := isBurst_iff n

/-- What exceeds the limit does so with more events. -/
theorem Exceeds.mono {m n : Nat} (h : Exceeds m) (hl : m ≤ n) : Exceeds n := by
  rw [exceeds_iff] at h ⊢
  omega

section
variable (env : Environment)

/-- A score of the agent reaches the threshold somewhere in the stream. -/
def ScoreReached (events : List AuditEvent) (agentId : String) : Prop :=
  ∃ before event after, events = before ++ event :: after ∧ event.agentId = agentId ∧
    ((((agents env).run .new before).observe env event).scorers event.agentId).isAnomalous
      env event = true

/-- The rate law for windows of some length: an agent that stays within the limit in every
window and below the threshold in every score is not suspended, and an agent that exceeds
the limit in some window is. -/
structure RollingWindow (length : Nat) (stream : TimedStream) (agentId : String) : Prop where
  quiet : (∀ start, ¬ Exceeds (stream.within agentId start length)) →
    ¬ ScoreReached env stream.events agentId → ∀ t out service,
      Py.Run (consume env stream.events) .new t out service → agentId ∉ service.suspended
  loud : (∃ start, Exceeds (stream.within agentId start length)) → ∀ t out service,
      Py.Run (consume env stream.events) .new t out service → agentId ∈ service.suspended

/-! ### One agent's events -/

/-- What the service holds for an agent after the agent's own events. -/
def after (events : List AuditEvent) : AgentState :=
  events.foldl (AgentState.handled env) ⟨⟨none⟩, {}, [], none, false⟩

private theorem after_concat (events : List AuditEvent) (event : AuditEvent) :
    after env (events ++ [event]) = (after env events).handled env event := List.foldl_concat ..

variable {env} {state : AgentState} {event : AuditEvent} {events : List AuditEvent}

/-- A suspended agent stays suspended. -/
theorem suspended_handled (h : state.suspended = true) :
    (state.handled env event).suspended = true := by
  unfold AgentState.handled
  dsimp only
  split
  · rfl
  · split
    · rfl
    · rw [AgentState.observe_suspended]
      exact h

/-- Without a burst an event is counted, and suspends if its score reaches the threshold. -/
theorem handled_of_not_burst (env : Environment) (event : AuditEvent)
    (h : state.burster.record.isBurst = false) :
    (state.handled env event).burster = state.burster.record ∧
      ((state.handled env event).suspended = true ↔ state.suspended = true ∨
        (state.observe env event).scorer.isAnomalous env event = true) := by
  unfold AgentState.handled
  simp only [AgentState.observe_burster, h, Bool.false_eq_true, if_false]
  by_cases ha : (state.observe env event).scorer.isAnomalous env event = true
  · simp [ha]
  · simp [ha]

/-- Some score reaches the threshold. -/
def Anomalous (env : Environment) (events : List AuditEvent) : Prop :=
  ∃ before event rest, events = before ++ event :: rest ∧
    ((after env before).observe env event).scorer.isAnomalous env event = true

private theorem anomalous_concat :
    Anomalous env (events ++ [event]) ↔ Anomalous env events ∨
      ((after env events).observe env event).scorer.isAnomalous env event = true := by
  constructor
  · rintro ⟨before, event', rest, he, ha⟩
    rcases List.eq_nil_or_concat rest with rfl | ⟨rest, last, rfl⟩
    · obtain ⟨hb, hl⟩ := List.append_inj' he rfl
      rw [hb, List.singleton_inj.mp hl]
      exact .inr ha
    · rw [List.concat_eq_append, ← List.cons_append, ← List.append_assoc] at he
      exact .inl ⟨before, event', rest, (List.append_inj' he rfl).1, ha⟩
  · rintro (⟨before, event', rest, rfl, ha⟩ | ha)
    · exact ⟨before, event', rest ++ [event], by simp, ha⟩
    · exact ⟨events, event, [], rfl, ha⟩

/-- Up to the limit the events are counted, and only a score suspends. -/
theorem after_of_not_exceeds (h : ¬ Exceeds events.length) :
    (after env events).burster = { count := events.length } ∧
      ((after env events).suspended = true ↔ Anomalous env events) := by
  induction events using List.reverseRecOn with
  | nil =>
    refine ⟨rfl, ?_⟩
    constructor
    · intro hs
      cases hs
    · rintro ⟨before, event, rest, he, -⟩
      simp at he
  | append_singleton events event ih =>
    rw [List.length_append, List.length_singleton] at h
    obtain ⟨hc, hs⟩ := ih fun he ↦ h (he.mono (Nat.le_succ _))
    have hb : (after env events).burster.record.isBurst = false := by
      rw [hc, ← Bool.not_eq_true]
      exact h
    obtain ⟨hc', hs'⟩ := handled_of_not_burst env event hb
    rw [after_concat, hc', hs', hs, anomalous_concat, hc, List.length_append, List.length_singleton]
    exact ⟨rfl, Iff.rfl⟩

/-- Past the limit the agent is suspended, however long its events took. -/
theorem suspended_of_exceeds (h : Exceeds events.length) :
    (after env events).suspended = true := by
  induction events using List.reverseRecOn with
  | nil =>
    rw [exceeds_iff] at h
    exact absurd h (Nat.not_lt_zero _)
  | append_singleton events event ih =>
    rw [after_concat]
    by_cases he : Exceeds events.length
    · exact suspended_handled (ih he)
    · have hb : ((after env events).observe env event).burster.isBurst = true := by
        rw [AgentState.observe_burster, (after_of_not_exceeds he).1]
        rw [List.length_append, List.length_singleton] at h
        exact h
      rw [AgentState.handled]
      simp only [hb, if_true]

variable {stream : TimedStream} {agentId : String}

/-! ### Streams -/

/-- What a stream leaves of an agent is what the agent's own events do. -/
theorem agent_run (env : Environment) (events : List AuditEvent) (agentId : String) :
    ((agents env).run .new events).agent agentId =
      after env ((agents env).ofKey agentId events) := by
  have h := (agents env).part_run .new events agentId
  exact h

/-- An agent is suspended after a stream when its own part of the stream suspends it. -/
theorem mem_suspended_iff (env : Environment) (events : List AuditEvent) (agentId : String) :
    agentId ∈ ((agents env).run .new events).suspended ↔
      (after env ((agents env).ofKey agentId events)).suspended = true := by
  rw [← agent_run]
  exact decide_eq_true_iff.symm

/-- The scores of an agent are those of its own events. -/
theorem scoreReached_iff :
    ScoreReached env events agentId ↔ Anomalous env ((agents env).ofKey agentId events) := by
  constructor
  · rintro ⟨before, event, rest, rfl, rfl, ha⟩
    rw [isAnomalous_observe, agent_run] at ha
    refine ⟨_, event, (agents env).ofKey event.agentId rest, ?_, ha⟩
    rw [Keyed.ofKey, List.filter_append, List.filter_cons_of_pos (by simp [agents])]
    rfl
  · rintro ⟨before, event, rest, he, ha⟩
    obtain ⟨l, l', rfl, rfl, hl⟩ := List.filter_eq_append_iff.mp he
    obtain ⟨l₁, l₂, rfl, hn, hk, -⟩ := List.filter_eq_cons_iff.mp hl
    have hk : event.agentId = agentId := of_decide_eq_true hk
    subst hk
    refine ⟨l ++ l₁, event, l₂, by simp, rfl, ?_⟩
    rw [isAnomalous_observe, agent_run, Keyed.ofKey, List.filter_append]
    rw [List.filter_eq_nil_iff.mpr hn, List.append_nil]
    exact ha

/-- An agent past the limit in total is suspended, and within it only by a score. -/
theorem mem_suspended_iff_exceeds (env : Environment) (events : List AuditEvent)
    (agentId : String) :
    agentId ∈ ((agents env).run .new events).suspended ↔
      Exceeds ((agents env).ofKey agentId events).length ∨ ScoreReached env events agentId := by
  rw [mem_suspended_iff, scoreReached_iff]
  by_cases h : Exceeds ((agents env).ofKey agentId events).length
  · exact ⟨fun _ ↦ .inl h, fun _ ↦ suspended_of_exceeds h⟩
  · rw [(after_of_not_exceeds h).2]
    exact ⟨.inr, fun hx ↦ hx.resolve_left h⟩

/-- The rate law holds for a window length exactly of the agents that stay within the limit
in total, exceed it in some window, or reach the threshold. -/
theorem rollingWindow_iff (env : Environment) (length : Nat) (stream : TimedStream)
    (agentId : String) :
    RollingWindow env length stream agentId ↔
      ¬ Exceeds (stream.total agentId) ∨ (∃ start, Exceeds (stream.within agentId start length)) ∨
        ScoreReached env stream.events agentId := by
  have hm := mem_suspended_iff_exceeds env stream.events agentId
  rw [stream.length_ofKey env] at hm
  constructor
  · intro hl
    by_contra hn
    rw [not_or, not_or, not_not, not_exists] at hn
    obtain ⟨t, service, hr⟩ := (consume_isolated env .new stream.events).consumed
    apply hl.quiet hn.2.1 hn.2.2 t _ service hr
    rw [(consume_run hr).2]
    exact hm.mpr (.inl hn.1)
  · intro hc
    constructor
    · intro hq hs t out service hr hmem
      rw [(consume_run hr).2, hm] at hmem
      rcases hc with ht | ⟨start, hw⟩ | hs'
      · exact hmem.elim ht hs
      · exact hq start hw
      · exact hs hs'
    · rintro ⟨start, hw⟩ t out service hr
      rw [(consume_run hr).2, hm]
      exact .inl (hw.mono (stream.within_le_total agentId start length))

end

/-! ### Slow streams -/

/-- A listing by an agent. -/
def listing : AuditEvent where
  eventId := "00000000-0000-4000-8000-000000000000"
  timestamp := .utc 0
  agentId := "agent-infra-001"
  agentType := "InfraAgent"
  taskId := "task-001"
  action := "s3:ListBuckets"
  resourceArn := "arn:aws:s3:::*"
  decision := "ALLOW"

/-- Eleven listings, each a window after the one before. -/
def slowStream (length : Nat) : TimedStream where
  arrivals := (List.range 11).map fun i ↦ (i * length, listing)
  sorted := by
    rw [List.pairwise_map]
    exact List.pairwise_le_range.imp fun h ↦ Nat.mul_le_mul_right length h

/-- A forest that finds nothing unusual. -/
def unmoved : Environment := ⟨id, fun _ _ ↦ 5000, "http://localhost:8002"⟩

private theorem isAnomalous_unmoved (scorer : AnomalyScorer) (event : AuditEvent) :
    scorer.isAnomalous unmoved event = false := by
  rw [AnomalyScorer.isAnomalous, AnomalyScorer.score, decide_eq_false_iff_not]
  cases scorer.fittedOn with
  | none => exact Nat.not_le_of_lt (by decide : 0 < anomalyThreshold)
  | some samples => exact Nat.not_le_of_lt (by decide : 5000 < anomalyThreshold)

/-- No window holds the first and the last of the listings. -/
theorem within_slowStream (length start : Nat) :
    ¬ Exceeds ((slowStream length).within listing.agentId start length) := by
  rw [exceeds_iff, TimedStream.within, slowStream, List.countP_map]
  intro hc
  have hl : (List.range 11).countP ((fun x : Nat × AuditEvent ↦ decide
      (x.2.agentId = listing.agentId ∧ start ≤ x.1 ∧ x.1 < start + length)) ∘
        fun i ↦ (i * length, listing)) = (List.range 11).length :=
    Nat.le_antisymm List.countP_le_length hc
  rw [List.countP_eq_length] at hl
  have hfirst := hl 0 (by decide)
  have hlast := hl 10 (by decide)
  simp only [Function.comp_apply, decide_eq_true_eq] at hfirst hlast
  omega

/-- For no length of windows does the rate law hold: eleven events are a burst even when they
are a window apart. -/
theorem no_rollingWindow :
    ¬ ∃ length > 0, ∀ stream agentId, RollingWindow unmoved length stream agentId := by
  rintro ⟨length, -, h⟩
  have hc := (rollingWindow_iff unmoved length (slowStream length) listing.agentId).mp (h _ _)
  rcases hc with ht | ⟨start, hw⟩ | ⟨_, event, _, _, _, ha⟩
  · apply ht
    have hn : (slowStream length).total listing.agentId = 11 := by
      rw [TimedStream.total, slowStream, List.countP_map]
      rfl
    rw [hn, exceeds_iff]
    decide
  · exact within_slowStream length start hw
  · rw [isAnomalous_unmoved] at ha
    cases ha

end NhiSentinel.Anomaly
