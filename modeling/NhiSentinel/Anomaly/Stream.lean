import NhiSentinel.Anomaly.Isolation
import NhiSentinel.Audit.Wire

/-!
# The topic of the anomaly service

`_consume_kafka` of `anomaly/service.py` on whatever comes in the topic. A message is decoded
while the loop takes it, outside of the guarded body: one that is no JSON ends the loop, one that
is JSON but no event is passed over, and after every other message the loop waits for the next.
-/

namespace NhiSentinel.Anomaly
open NhiSentinel.Base NhiSentinel.Audit

/-- A message of the topic, with what the defaults of its event are taken from. -/
structure TopicMessage where
  raw : String
  fresh : Fresh

section
variable (env : Environment) (loads : String → Option Value) (format : WireFormat)

/-- The guarded body of the loop, `service.py:76`. -/
def handleMessage (fresh : Fresh) (value : Value) : Coroutine Unit :=
  Py.handle
    (match AuditEvent.validate? format fresh value with
    | none => Py.raise "ValidationError"
    | some event => processEvent env event)
    fun _ ↦ pure ()

/-- Where the loop stands once it has taken what has come: the iterator of the consumer does not
end, it waits. -/
inductive Awaiting
  | message
  deriving DecidableEq, Repr

/-- The loop of `_consume_kafka`, `service.py:75`, on the messages that have come so far, with
`json.loads` of the `value_deserializer`. -/
def consumeKafka : List TopicMessage → Coroutine Awaiting
  | [] => pure .message
  | message :: rest =>
    match loads message.raw with
    | none => Py.raise "JSONDecodeError"
    | some value => do
      handleMessage env format message.fresh value
      consumeKafka rest

/-- A message can be taken from the topic. -/
def Decodable (message : TopicMessage) : Prop := (loads message.raw).isSome = true

instance (message : TopicMessage) : Decidable (Decodable loads message) :=
  inferInstanceAs (Decidable (_ = true))

/-- The event of a message. -/
def eventOf (message : TopicMessage) : Option AuditEvent :=
  (loads message.raw).bind (AuditEvent.validate? format message.fresh)

/-- The events of the messages before the first that cannot be taken. -/
def consumed (messages : List TopicMessage) : List AuditEvent :=
  (messages.takeWhile (Decodable loads ·)).filterMap (eventOf loads format)

end

variable {env : Environment} {loads : String → Option Value} {format : WireFormat}
  {service service' : Service} {t : List ServiceEvent} {out : Except String Awaiting}

/-- The loop goes on from where it waits. -/
theorem consumeKafka_append (messages more : List TopicMessage) :
    consumeKafka env loads format (messages ++ more) =
      (do let _ ← consumeKafka env loads format messages; consumeKafka env loads format more) := by
  induction messages with
  | nil => rfl
  | cons message rest ih =>
    rw [List.cons_append, consumeKafka, consumeKafka, ih]
    cases loads message.raw with
    | none => rfl
    | some value => exact (Py.bind_assoc ..).symm

private theorem consumed_cons_of_decodable {message : TopicMessage} (h : Decodable loads message)
    (rest : List TopicMessage) :
    consumed loads format (message :: rest) =
      (eventOf loads format message).toList ++ consumed loads format rest := by
  have hd : decide (Decodable loads message) = true := decide_eq_true h
  rw [consumed, List.takeWhile_cons, hd, if_pos rfl, List.filterMap_cons]
  cases eventOf loads format message <;> rfl

private theorem consumed_cons_of_not_decodable {message : TopicMessage}
    (h : ¬ Decodable loads message)
    (rest : List TopicMessage) : consumed loads format (message :: rest) = [] := by
  have hd : decide (Decodable loads message) = false := decide_eq_false h
  rw [consumed, List.takeWhile_cons, hd, if_neg Bool.false_ne_true, List.filterMap_nil]

/-- A message that is JSON is handled if it is an event, and nothing is raised. -/
theorem handleMessage_run {fresh : Fresh} {value : Value} {out : Except String Unit}
    (h : Py.Run (handleMessage env format fresh value) service t out service') :
    out = .ok () ∧ service' =
      (agents env).run service (AuditEvent.validate? format fresh value).toList := by
  rw [handleMessage] at h
  cases hv : AuditEvent.validate? format fresh value with
  | none =>
    rw [hv, Py.run_handle] at h
    rcases h with ⟨a, h, -⟩ | ⟨e, t₁, t₂, s₁, -, h₁, h₂⟩
    · cases (Py.run_raise.mp h).2.1
    · rw [Py.run_raise] at h₁
      rw [Py.run_pure] at h₂
      exact ⟨h₂.2.1, h₂.2.2.trans h₁.2.2⟩
  | some event =>
    rw [hv] at h
    exact handle_processEvent_run h

/-- Whatever has come in the topic and whatever comes of the POSTs, the service is left as the
events before the first message that cannot be taken leave it. Such a message ends the loop; as
long as none has come, the loop waits for the next message. -/
theorem consumeKafka_run {messages : List TopicMessage}
    (h : Py.Run (consumeKafka env loads format messages) service t out service') :
    service' = (agents env).run service (consumed loads format messages) ∧
      (out = .ok .message ∧ (∀ message ∈ messages, Decodable loads message) ∨
        out = .error "JSONDecodeError" ∧ ∃ message ∈ messages, ¬ Decodable loads message) := by
  induction messages generalizing service t with
  | nil =>
    rw [consumeKafka, Py.run_pure] at h
    exact ⟨h.2.2, .inl ⟨h.2.1, fun _ hm ↦ absurd hm List.not_mem_nil⟩⟩
  | cons message rest ih =>
    cases hl : loads message.raw with
    | none =>
      have hd : ¬ Decodable loads message := by rw [Decodable, hl]; exact Bool.false_ne_true
      simp only [consumeKafka, hl] at h
      obtain ⟨-, rfl, rfl⟩ := Py.run_raise.mp h
      rw [consumed_cons_of_not_decodable hd]
      exact ⟨rfl, .inr ⟨rfl, message, List.mem_cons_self, hd⟩⟩
    | some value =>
      have hd : Decodable loads message := by rw [Decodable, hl]; rfl
      have he : eventOf loads format message = AuditEvent.validate? format message.fresh value := by
        rw [eventOf, hl, Option.bind_some]
      simp only [consumeKafka, hl, Py.run_bind] at h
      rcases h with ⟨e, h, -⟩ | ⟨_, t₁, t₂, s₁, rfl, h, h'⟩
      · cases (handleMessage_run h).1
      · obtain ⟨-, rfl⟩ := handleMessage_run h
        obtain ⟨hs, ho⟩ := ih h'
        rw [consumed_cons_of_decodable hd, he]
        refine ⟨hs.trans (List.foldl_append ..).symm, ho.imp ?_ ?_⟩
        · rintro ⟨rfl, ha⟩
          exact ⟨rfl, List.forall_mem_cons.mpr ⟨hd, ha⟩⟩
        · rintro ⟨rfl, m, hm, hn⟩
          exact ⟨rfl, m, List.mem_cons_of_mem _ hm, hn⟩

/-- Every published event reaches the scoring in the form in which it was written, and none of
them ends the loop. -/
theorem consumed_published (hf : format.Lawful) (hl : LoadsJson loads)
    {messages : List TopicMessage} {events : List AuditEvent}
    (hw : ∀ event ∈ events, event.WellFormed)
    (h : List.Forall₂ (fun message event ↦ event.dumpJson format = some message.raw)
      messages events) :
    consumed loads format messages = events.map (AuditEvent.onWire format) ∧
      ∀ message ∈ messages, Decodable loads message := by
  induction h with
  | nil => exact ⟨rfl, fun _ hm ↦ absurd hm List.not_mem_nil⟩
  | @cons message event rest events hd _ ih =>
    have he : eventOf loads format message = some (event.onWire format) :=
      ((wire_roundTrip hf hl (hw event List.mem_cons_self) message.fresh).2.2 _ hd).2
    have hdec : Decodable loads message := by
      rw [eventOf] at he
      obtain ⟨v, hv, -⟩ := Option.bind_eq_some_iff.mp he
      rw [Decodable, hv]
      rfl
    obtain ⟨hc, ha⟩ := ih fun e hm ↦ hw e (List.mem_cons_of_mem _ hm)
    constructor
    · rw [consumed_cons_of_decodable hdec, he, hc]
      rfl
    · intro m hm
      rcases List.mem_cons.mp hm with rfl | hm
      · exact hdec
      · exact ha m hm

/-! ### Whole topics -/

/-- From any state and on whatever has come in the topic: the loop gets through it, it leaves what
the events before the first message that is no JSON leave, and then it waits for the next message,
unless there was such a message, by which it was ended. What comes later is taken from there. -/
structure Drained (env : Environment) (loads : String → Option Value) (format : WireFormat)
    (service : Service) (messages : List TopicMessage) : Prop where
  runs : ∃ t out service', Py.Run (consumeKafka env loads format messages) service t out service'
  state : ∀ t out service', Py.Run (consumeKafka env loads format messages) service t out service' →
    service' = (agents env).run service (consumed loads format messages)
  waits : ∀ t out service', Py.Run (consumeKafka env loads format messages) service t out service' →
    (out = .ok .message ↔ ∀ message ∈ messages, Decodable loads message)
  raises : ∀ t out service',
    Py.Run (consumeKafka env loads format messages) service t out service' →
      (out = .error "JSONDecodeError" ↔ ∃ message ∈ messages, ¬ Decodable loads message)
  resumes : ∀ more, consumeKafka env loads format (messages ++ more) =
    (do let _ ← consumeKafka env loads format messages; consumeKafka env loads format more)

/-- A stream with all its messages is drained, whatever they are. -/
theorem consumeKafka_drained (env : Environment) (loads : String → Option Value)
    (format : WireFormat) (service : Service) (messages : List TopicMessage) :
    Drained env loads format service messages := by
  constructor
  · have hr := Py.run_exec (fun _ (c : ServiceCall) ↦
      (c.casesOn (0 : Nat) fun _ _ ↦ .ok 200 : c.Reply))
      (consumeKafka env loads format messages) service
    exact ⟨_, _, _, hr⟩
  · exact fun _ _ _ h ↦ (consumeKafka_run h).1
  · intro t out service' h
    rcases (consumeKafka_run h).2 with ⟨rfl, ha⟩ | ⟨rfl, m, hm, hn⟩
    · exact iff_of_true rfl ha
    · exact iff_of_false nofun fun ha ↦ hn (ha m hm)
  · intro t out service' h
    rcases (consumeKafka_run h).2 with ⟨rfl, ha⟩ | ⟨rfl, hn⟩
    · exact iff_of_false nofun fun ⟨m, hm, hn⟩ ↦ hn (ha m hm)
    · exact iff_of_true rfl hn
  · exact consumeKafka_append messages

end NhiSentinel.Anomaly
