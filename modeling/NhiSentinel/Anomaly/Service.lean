import NhiSentinel.Anomaly.Scorer
import NhiSentinel.Base.Program

/-!
# The anomaly service

The detectors of `anomaly/scorer.py` and the handling of events in `anomaly/service.py`. A
trained isolation forest is a parameter, and its scores are in ten-thousandths. Logging is
left out.
-/

namespace NhiSentinel.Anomaly
open NhiSentinel.Base NhiSentinel.Audit

/-! ### Detectors -/

/-- What the service runs with: letter case beyond ASCII, the score of the forest that is fitted
on some features, and `IDENTITY_API_URL`. -/
structure Environment where
  lower : String → String
  forest : List Features → Features → Nat
  identityUrl : String := "http://localhost:8002"

/-- `AnomalyScorer.MIN_FIT_SAMPLES`, `scorer.py:73`. -/
def minFitSamples : Nat := 10

/-- `ANOMALY_THRESHOLD`, `scorer.py:32`. -/
def anomalyThreshold : Nat := 9500

/-- `AnomalyScorer`, `scorer.py:62`: what its forest is fitted on. -/
structure AnomalyScorer where
  fittedOn : Option (List Features)

/-- `fit`, `scorer.py:83`. -/
def AnomalyScorer.fit (env : Environment) (scorer : AnomalyScorer) (events : List AuditEvent) :
    AnomalyScorer :=
  if events.length < minFitSamples then scorer
  else ⟨some (events.map (extractFeatures env.lower))⟩

/-- `score`, `scorer.py:96`. -/
def AnomalyScorer.score (env : Environment) (scorer : AnomalyScorer) (event : AuditEvent) : Nat :=
  match scorer.fittedOn with
  | none => 0
  | some samples => env.forest samples (extractFeatures env.lower event)

/-- `is_anomalous`, `scorer.py:109`. -/
def AnomalyScorer.isAnomalous (env : Environment) (scorer : AnomalyScorer) (event : AuditEvent)
    (threshold : Nat := anomalyThreshold) : Bool :=
  threshold ≤ scorer.score env event

/-- `round(x, 4)` in exact arithmetic: to the nearest, and to the even one of two. -/
def roundFour (x : Rat) : Rat :=
  let below := (x * 10000).floor
  let rest := x * 10000 - below
  if rest < 1 / 2 ∨ rest = 1 / 2 ∧ below % 2 = 0 then below / 10000 else (below + 1) / 10000

/-- `BurstDetector`, `scorer.py:117`, with the defaults of its constructor. -/
structure BurstDetector where
  baseline : Rat := 2
  threshold : Rat := 5
  count : Nat := 0

/-- `record`, `scorer.py:147`. -/
def BurstDetector.record (burster : BurstDetector) : BurstDetector :=
  { burster with count := burster.count + 1 }

/-- `is_burst`, `scorer.py:155`. -/
def BurstDetector.isBurst (burster : BurstDetector) : Bool :=
  burster.baseline * burster.threshold < burster.count

/-- `burst_score`, `scorer.py:159`. -/
def BurstDetector.burstScore (burster : BurstDetector) : Except String Rat :=
  if burster.count ≤ burster.baseline then .ok 0
  else
    let burstThreshold := burster.baseline * burster.threshold
    if burstThreshold - burster.baseline = 0 then .error "ZeroDivisionError"
    else
      let excess := (burster.count - burster.baseline) / (burstThreshold - burster.baseline)
      .ok (roundFour (min 1 (max 0 excess)))

/-- `reset`, `scorer.py:171`. -/
def BurstDetector.reset (burster : BurstDetector) : BurstDetector := { burster with count := 0 }

/-- For a detector of the service, a burst is more than ten events. -/
theorem isBurst_iff (n : Nat) :
    ({ count := n } : BurstDetector).isBurst = true ↔ 10 < n := by
  have hb : (2 : Rat) * 5 = ((10 : Nat) : Rat) := by decide +kernel
  rw [BurstDetector.isBurst, hb, decide_eq_true_eq, Nat.cast_lt]

/-! ### Events -/

/-- The state of the service, `service.py:42–51`. -/
structure Service where
  scorers : String → AnomalyScorer
  bursters : String → BurstDetector
  histories : String → List AuditEvent
  latestScores : String → Option Nat
  suspended : List String
  eventsScored : Nat
  suspensions : Nat
  burstDetections : Nat

/-- The service when it starts. -/
def Service.new : Service where
  scorers _ := ⟨none⟩
  bursters _ := {}
  histories _ := []
  latestScores _ := none
  suspended := []
  eventsScored := 0
  suspensions := 0
  burstDetections := 0

/-- `deque(maxlen=500).append`: the oldest events make room. -/
def append (history : List AuditEvent) (event : AuditEvent) : List AuditEvent :=
  (history ++ [event]).drop (history.length + 1 - 500)

/-- The calls that leave the service. -/
inductive ServiceCall where
  | clock
  | post (url : String) (body : Value)

/-- What a call is answered; a POST by a status, or by the class name of an exception. -/
@[reducible] def ServiceCall.Reply : ServiceCall → Type
  | clock => Nat
  | post .. => Except String Nat

/-- A call together with its reply. -/
abbrev ServiceEvent := Sigma ServiceCall.Reply

/-- A coroutine of the service; exceptions are class names. -/
abbrev Coroutine := Py Service String ServiceCall ServiceCall.Reply

/-- Call the environment. -/
def ask (c : ServiceCall) : Coroutine c.Reply := Py.ask c

section
variable (env : Environment)

/-- The event is kept, scored and counted, `service.py:91–105`. -/
def Service.observe (service : Service) (event : AuditEvent) : Service :=
  let history := append (service.histories event.agentId) event
  let scorer := service.scorers event.agentId
  let scorer :=
    if minFitSamples ≤ history.length ∧ scorer.fittedOn = none then scorer.fit env history
    else scorer
  let burster := (service.bursters event.agentId).record
  { service with
    histories := Function.update service.histories event.agentId history
    scorers := Function.update service.scorers event.agentId scorer
    latestScores :=
      Function.update service.latestScores event.agentId (some (scorer.score env event))
    eventsScored := service.eventsScored + 1
    bursters := Function.update service.bursters event.agentId burster }

/-- An event is recorded by the burst detector of its agent. -/
@[simp] theorem observe_bursters (service : Service) (event : AuditEvent) :
    (service.observe env event).bursters event.agentId =
      (service.bursters event.agentId).record := Function.update_self ..

/-- Where the suspension of an agent is posted to, `service.py:141`. -/
def suspendUrl (agentId : String) : String := s!"{env.identityUrl}/identities/{agentId}/suspend"

/-- What is posted, `service.py:142`. -/
def suspendBody (reason : String) (now : Nat) : Value := .obj [
  ("reason", .str reason),
  ("suspended_at", .str (Python.isoformat now))]

/-- The guarded part of `_suspend_identity`, `service.py:139–145`. -/
def postSuspension (agentId reason : String) : Coroutine Unit := do
  let now : Nat ← ask .clock
  let resp : Except String Nat ← ask (.post (suspendUrl env agentId) (suspendBody reason now))
  let statusCode ← Py.ofExcept resp
  if 200 ≤ statusCode ∧ statusCode ≤ 299 then pure () else Py.raise "HTTPStatusError"

/-- `_suspend_identity`, `service.py:132`. -/
def suspendIdentity (agentId reason : String) : Coroutine Unit := do
  let service ← Py.read
  if agentId ∈ service.suspended then pure ()
  else do
    Py.update fun service ↦ { service with suspended := agentId :: service.suspended }
    Py.handle (postSuspension env agentId reason) fun _ ↦ pure ()

/-- A score as it is printed, with four digits. -/
def scoreText (score : Nat) : String := s!"{score / 10000}.{Python.pad 4 (score % 10000)}"

/-- `_process_event`, `service.py:88`. -/
def processEvent (event : AuditEvent) : Coroutine Unit := do
  let agentId := event.agentId
  Py.update fun service ↦ service.observe env event
  let service ← Py.read
  let scorer := service.scorers agentId
  let burster := service.bursters agentId
  if burster.isBurst then do
    Py.update fun service ↦ { service with burstDetections := service.burstDetections + 1 }
    suspendIdentity env agentId s!"Burst detection: {burster.count} events in window"
    Py.update fun service ↦ { service with
      bursters := Function.update service.bursters agentId (service.bursters agentId).reset }
  else if scorer.isAnomalous env event then do
    Py.update fun service ↦ { service with suspensions := service.suspensions + 1 }
    suspendIdentity env agentId s!"Anomaly score {scoreText (scorer.score env event)} >= 0.95"
  else pure ()

/-- What `score_event` answers. -/
structure ScoreReply where
  agentId : String
  anomalyScore : Nat
  isAnomalous : Bool
  isBurst : Bool
  burstScore : Rat

/-- `score_event`, `service.py:183`, on a valid event. -/
def Service.scoreEvent (service : Service) (event : AuditEvent) :
    Except String ScoreReply × Service :=
  let scorer := service.scorers event.agentId
  let burster := (service.bursters event.agentId).record
  (burster.burstScore.map fun burstScore ↦ {
      agentId := event.agentId
      anomalyScore := scorer.score env event
      isAnomalous := scorer.isAnomalous env event
      isBurst := burster.isBurst
      burstScore := burstScore },
    { service with bursters := Function.update service.bursters event.agentId burster })

/-! ### Runs -/

/-- An event breaches: with it, the burst detector fires or the score reaches the threshold. -/
def Service.Breaches (service : Service) (event : AuditEvent) : Prop :=
  let observed := service.observe env event
  (observed.bursters event.agentId).isBurst = true ∨
    (observed.scorers event.agentId).isAnomalous env event = true

instance (service : Service) (event : AuditEvent) : Decidable (service.Breaches env event) :=
  inferInstanceAs (Decidable (_ ∨ _))

/-- An agent is marked as suspended. -/
def Service.mark (service : Service) (agentId : String) : Service :=
  if agentId ∈ service.suspended then service
  else { service with suspended := agentId :: service.suspended }

/-- The service after an event, whatever comes of a POST. -/
def Service.handled (service : Service) (event : AuditEvent) : Service :=
  let observed := service.observe env event
  if (observed.bursters event.agentId).isBurst then
    let noted := { observed with burstDetections := observed.burstDetections + 1 }
    { noted.mark event.agentId with
      bursters := Function.update observed.bursters event.agentId
        (observed.bursters event.agentId).reset }
  else if (observed.scorers event.agentId).isAnomalous env event then
    { observed with suspensions := observed.suspensions + 1 }.mark event.agentId
  else observed

/-- The reason of a suspension by an event. -/
def Service.reason (service : Service) (event : AuditEvent) : String :=
  let observed := service.observe env event
  if (observed.bursters event.agentId).isBurst then
    s!"Burst detection: {(observed.bursters event.agentId).count} events in window"
  else s!"Anomaly score {scoreText ((observed.scorers event.agentId).score env event)} >= 0.95"

/-- The calls of a suspension: it is posted once, unless the agent is marked. -/
def Service.Posts (service : Service) (agentId reason : String) (t : List ServiceEvent) : Prop :=
  (agentId ∈ service.suspended ∧ t = []) ∨
    (agentId ∉ service.suspended ∧ ∃ now resp, t = [⟨.clock, now⟩,
      ⟨.post (suspendUrl env agentId) (suspendBody reason now), resp⟩])

variable {env} {service service' : Service} {t : List ServiceEvent} {agentId reason : String}

/-- Marking an agent leaves the burst detectors alone. -/
@[simp] theorem mark_bursters (service : Service) (agentId : String) :
    (service.mark agentId).bursters = service.bursters := by
  rw [Service.mark]
  split <;> rfl

/-- A suspension is posted at some time, and may fail. -/
theorem postSuspension_run :
    (∃ out, Py.Run (postSuspension env agentId reason) service t out service') ↔
      (∃ now resp, t = [⟨.clock, now⟩,
        ⟨.post (suspendUrl env agentId) (suspendBody reason now), resp⟩]) ∧ service' = service := by
  simp only [postSuspension, ask, Py.run_ask_bind, Py.run_ofExcept_bind]
  constructor
  · rintro ⟨out, now, _, rfl, resp, t, rfl, h⟩
    have ht : t = [] ∧ service' = service := by
      rcases h with ⟨statusCode, -, h⟩ | ⟨e, -, rfl, -, hs⟩
      · split at h
        · exact ⟨(Py.run_pure.mp h).1, (Py.run_pure.mp h).2.2⟩
        · exact ⟨(Py.run_raise.mp h).1, (Py.run_raise.mp h).2.2⟩
      · exact ⟨rfl, hs⟩
    rw [ht.1]
    exact ⟨⟨now, resp, rfl⟩, ht.2⟩
  · rintro ⟨⟨now, resp, rfl⟩, rfl⟩
    cases resp with
    | error cls => exact ⟨_, now, _, rfl, _, _, rfl, .inr ⟨cls, rfl, rfl, rfl, rfl⟩⟩
    | ok statusCode =>
      by_cases hs : 200 ≤ statusCode ∧ statusCode ≤ 299
      · refine ⟨.ok (), now, _, rfl, _, _, rfl, .inl ⟨statusCode, rfl, ?_⟩⟩
        rw [if_pos hs, Py.run_pure]
        exact ⟨rfl, rfl, rfl⟩
      · refine ⟨.error "HTTPStatusError", now, _, rfl, _, _, rfl, .inl ⟨statusCode, rfl, ?_⟩⟩
        rw [if_neg hs, Py.run_raise]
        exact ⟨rfl, rfl, rfl⟩

/-- A suspension marks the agent, and passes every failure over. -/
theorem suspendIdentity_run {out : Except String Unit} :
    Py.Run (suspendIdentity env agentId reason) service t out service' ↔
      out = .ok () ∧ service' = service.mark agentId ∧ service.Posts env agentId reason t := by
  have hhandle {s : Service} :
      Py.Run (Py.handle (postSuspension env agentId reason) fun _ ↦ pure ()) s t out service' ↔
        out = .ok () ∧ ∃ o, Py.Run (postSuspension env agentId reason) s t o service' := by
    simp only [Py.run_handle, Py.run_pure]
    constructor
    · rintro (⟨a, h, rfl⟩ | ⟨e, t₁, _, s₁, rfl, h, rfl, rfl, rfl⟩)
      · exact ⟨rfl, _, h⟩
      · rw [List.append_nil]
        exact ⟨rfl, _, h⟩
    · rintro ⟨rfl, o, h⟩
      cases o with
      | ok a => exact .inl ⟨a, h, rfl⟩
      | error e => exact .inr ⟨e, t, [], _, (List.append_nil t).symm, h, rfl, rfl, rfl⟩
  simp only [suspendIdentity, Py.run_read_bind]
  by_cases hm : agentId ∈ service.suspended
  · rw [if_pos hm, Py.run_pure, Service.mark, if_pos hm, Service.Posts]
    simp only [hm, not_true_eq_false, true_and, false_and, or_false]
    rw [and_comm, and_assoc]
  · rw [if_neg hm, Py.run_update_bind, hhandle, postSuspension_run, Service.mark, if_neg hm,
      Service.Posts]
    simp only [hm, not_false_eq_true, true_and, false_and, false_or]
    rw [and_comm (b := _ = _)]

/-- A suspension that something follows. -/
theorem run_suspendIdentity_bind {α : Type} {f : Unit → Coroutine α} {out : Except String α} :
    Py.Run (suspendIdentity env agentId reason >>= f) service t out service' ↔
      ∃ t₁ t₂, t = t₁ ++ t₂ ∧ service.Posts env agentId reason t₁ ∧
        Py.Run (f ()) (service.mark agentId) t₂ out service' := by
  simp only [Py.run_bind, suspendIdentity_run]
  constructor
  · rintro (⟨e, ⟨he, -⟩, -⟩ | ⟨_, t₁, t₂, _, rfl, ⟨-, rfl, hp⟩, h⟩)
    · cases he
    · exact ⟨t₁, t₂, rfl, hp, h⟩
  · rintro ⟨t₁, t₂, rfl, hp, h⟩
    exact .inr ⟨(), t₁, t₂, _, rfl, ⟨trivial, rfl, hp⟩, h⟩

/-- The handling of an event never raises; it posts a suspension when the event breaches. -/
theorem processEvent_run {event : AuditEvent} {out : Except String Unit} :
    Py.Run (processEvent env event) service t out service' ↔
      out = .ok () ∧ service' = service.handled env event ∧
        ((service.Breaches env event ∧
            service.Posts env event.agentId (service.reason env event) t) ∨
          (¬ service.Breaches env event ∧ t = [])) := by
  simp only [processEvent, Py.run_update_bind, Py.run_read_bind, Service.handled, Service.reason]
  by_cases hb : ((service.observe env event).bursters event.agentId).isBurst = true
  · have hbr : service.Breaches env event := .inl hb
    rw [if_pos hb, if_pos hb, if_pos hb, Py.run_update_bind, run_suspendIdentity_bind]
    simp only [Py.run_update, hbr, true_and, not_true_eq_false, false_and, or_false]
    constructor
    · rintro ⟨t₁, _, rfl, hp, rfl, rfl, rfl⟩
      rw [List.append_nil]
      refine ⟨rfl, ?_, hp⟩
      rw [mark_bursters]
    · rintro ⟨rfl, rfl, hp⟩
      refine ⟨t, [], (List.append_nil t).symm, hp, rfl, rfl, ?_⟩
      rw [mark_bursters]
  · rw [if_neg hb, if_neg hb, if_neg hb]
    by_cases ha : ((service.observe env event).scorers event.agentId).isAnomalous env event = true
    · have hbr : service.Breaches env event := .inr ha
      rw [if_pos ha, if_pos ha, Py.run_update_bind, suspendIdentity_run]
      simp only [hbr, true_and, not_true_eq_false, false_and, or_false]
      rfl
    · have hbr : ¬ service.Breaches env event := not_or_intro hb ha
      rw [if_neg ha, if_neg ha, Py.run_pure]
      simp only [hbr, false_and, false_or, not_false_eq_true, true_and]
      constructor
      · rintro ⟨ht, ho, hs⟩
        exact ⟨ho, hs, ht⟩
      · rintro ⟨ho, hs, ht⟩
        exact ⟨ht, ho, hs⟩

/-- Who is marked after a mark. -/
theorem mem_mark {x : String} :
    x ∈ (service.mark agentId).suspended ↔ x = agentId ∨ x ∈ service.suspended := by
  rw [Service.mark]
  split
  · next hm =>
    constructor
    · exact .inr
    · rintro (rfl | hx)
      · exact hm
      · exact hx
  · exact List.mem_cons

/-- A breach marks its agent, and an event marks nobody else. -/
theorem mem_handled {event : AuditEvent} {x : String} :
    x ∈ (service.handled env event).suspended ↔
      (x = event.agentId ∧ service.Breaches env event) ∨ x ∈ service.suspended := by
  rw [Service.handled]
  by_cases hb : ((service.observe env event).bursters event.agentId).isBurst = true
  · have hbr : service.Breaches env event := .inl hb
    rw [if_pos hb]
    simp only [mem_mark, hbr, and_true]
    rfl
  · rw [if_neg hb]
    by_cases ha : ((service.observe env event).scorers event.agentId).isAnomalous env event = true
    · have hbr : service.Breaches env event := .inr ha
      rw [if_pos ha]
      simp only [mem_mark, hbr, and_true]
      rfl
    · have hbr : ¬ service.Breaches env event := not_or_intro hb ha
      rw [if_neg ha]
      simp only [hbr, and_false, false_or]
      rfl

/-- A burst starts the count anew. -/
theorem handled_bursters {event : AuditEvent}
    (hb : ((service.observe env event).bursters event.agentId).isBurst = true) :
    (service.handled env event).bursters event.agentId =
      (service.bursters event.agentId).record.reset := by
  rw [Service.handled, if_pos hb, ← observe_bursters env service event]
  exact Function.update_self ..

end

end NhiSentinel.Anomaly
