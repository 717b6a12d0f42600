import NhiSentinel.Audit.Conservation
import NhiSentinel.Audit.Consumer
import NhiSentinel.Audit.Wire

/-!
# The audit trail

Producers that publish to one topic, the consumer that writes what it reads there to the store,
statements that try to change the store, and the endpoints that read it. What an agent was told
is published stays in the store as it was published, and its chain verifies there.
-/

namespace NhiSentinel.Audit
open NhiSentinel.Base

/-! ### The store to others -/

/-- A statement on `audit_events` that would change rows or remove them. -/
inductive Modification where
  | update (affects : Row → Bool) (set : Row → Row)
  | delete (affects : Row → Bool)

/-- The rows that a statement is about. -/
def Modification.affects : Modification → Row → Bool
  | update affects _ | delete affects => affects

/-- What a statement would make of a table. -/
def Modification.apply : Modification → Table → Table
  | update affects set, table => table.map fun row ↦ if affects row then set row else row
  | delete affects, table => table.filter fun row ↦ ! affects row

/-- A statement with the trigger `audit_immutability`, `init.sql:63`, which raises before the
first row that is affected. -/
def Table.modify (table : Table) (m : Modification) : Except String Table :=
  match table.find? m.affects with
  | some row =>
    .error s!"Audit records are immutable. Modification attempted on event_id: {row.eventId}"
  | none => .ok (m.apply table)

/-- `SELECT * FROM audit_events WHERE event_id = $1`, `api.py:134`. -/
def Table.fetchEvent (table : Table) (eventId : String) : Option Row :=
  table.find? (·.eventId = eventId)

/-- `get_event`, `api.py:124`, from the row that the database returns or the exception that is
raised on the way. -/
def getEvent (fetched : Except String (Option Row)) : Except HttpException Row :=
  match fetched with
  | .error _ => .error ⟨503, "Audit store unavailable"⟩
  | .ok none => .error ⟨404, "Event not found"⟩
  | .ok (some row) => .ok row

/-- The row that `_persist` writes of an event. -/
def AuditEvent.stored (dumps : List (String × Value) → Option String) (event : AuditEvent) : Row :=
  event.row fun result ↦ (dumps result).getD ""

/-- An event that can be written has a result on the wire if it has one. -/
theorem AuditEvent.hasResult_onWire {format : WireFormat} (hf : format.Lawful)
    (event : AuditEvent) :
    (event.onWire format).hasResult = event.hasResult := by
  show (event.executionResult.map _).any _ = event.executionResult.any _
  cases event.executionResult with
  | none => rfl
  | some kvs =>
    rw [Option.map_some, Option.any_some, Option.any_some]
    cases hj : format.jsonDict (.obj kvs) with
    | none => rfl
    | some form =>
      have hl := congrArg List.length (hf.jsonDict.keys kvs form hj)
      rw [List.length_map, List.length_map] at hl
      rw [Option.getD_some, Bool.eq_iff_iff, decide_eq_true_eq, decide_eq_true_eq,
        ← List.length_pos_iff_ne_nil, ← List.length_pos_iff_ne_nil, hl]

/-! ### The system -/

/-- All producers, and the consumer with its topic and its store. -/
structure Pipeline (ι P : Type) where
  producers : ι → ProducerRun
  consumer : AuditConsumer P String

/-- What happens in it: a producer publishes, with what becomes of the send and the partition it
is sent to, or is drained; the consumer goes on; or someone tries to change the store. -/
inductive PipelineStep (ι P : Type) where
  | publish (i : ι) (event : AuditEvent) (delivery : Delivery) (partition : P)
  | drain (i : ι)
  | consume (step : ConsumerStep P String)
  | modify (m : Modification)

/-- The message is in the topic. -/
def Delivery.arrived : Delivery → Bool
  | acknowledged => true
  | failed => false
  | timedOut delivered => delivered

/-- The events whose messages are in the topic. -/
def ProducerRun.arrived (run : ProducerRun) : List AuditEvent :=
  (run.publications.filter fun p ↦ run.producer.connected ∧ p.delivery.arrived).map
    Publication.event

/-- The identifier of the event that a step publishes. -/
def PipelineStep.eventId? {ι P : Type} : PipelineStep ι P → Option String
  | publish _ event _ _ => some event.eventId
  | _ => none

section
variable {ι P : Type} [DecidableEq ι] [DecidableEq P]
  (sha256 : String → String) (format : WireFormat) (fresh : Fresh)
  (dumps : List (String × Value) → Option String)

/-- One step, where it is possible. An event is only sent if it has a JSON form. -/
def Pipeline.step (s : Pipeline ι P) : PipelineStep ι P → Option (Pipeline ι P)
  | .publish i event delivery partition =>
    let producer := (s.producers i).producer
    let producers := Function.update s.producers i
      ((s.producers i).step sha256 (.publish event delivery))
    if producer.connected ∧ delivery.arrived then do
      let json ← (producer.complete sha256 event).dumpJson format
      let consumer ← s.consumer.step (AuditEvent.validateJson? format fresh) dumps
        (.produce partition json)
      return ⟨producers, consumer⟩
    else some ⟨producers, s.consumer⟩
  | .drain i => some { s with
      producers := Function.update s.producers i ((s.producers i).step sha256 .drain) }
  | .consume (.produce ..) => none
  | .consume a => do
    let consumer ← s.consumer.step (AuditEvent.validateJson? format fresh) dumps a
    return { s with consumer := consumer }
  | .modify m => match s.consumer.table.modify m with
    | .ok table => some { s with consumer := { s.consumer with table := table } }
    | .error _ => some s

/-- Before the first event. -/
def Pipeline.new (connected : ι → Bool) : Pipeline ι P := ⟨fun i ↦ .new (connected i), .new⟩

/-- Steps one after the other from the beginning. -/
def Pipeline.run (connected : ι → Bool) (steps : List (PipelineStep ι P)) :
    Option (Pipeline ι P) :=
  steps.foldlM (Pipeline.step sha256 format fresh dumps) (.new connected)

end

/-- Events are published as agents make them: well formed, with a new identifier each. -/
structure Proper {ι P : Type} (steps : List (PipelineStep ι P)) : Prop where
  wellFormed : ∀ i event delivery partition,
    .publish i event delivery partition ∈ steps → event.WellFormed
  nodup : (steps.filterMap PipelineStep.eventId?).Nodup

/-- The beginning of proper steps is proper. -/
theorem Proper.of_append {ι P : Type} {steps after : List (PipelineStep ι P)}
    (h : Proper (steps ++ after)) : Proper steps := by
  have hnodup := h.nodup
  rw [List.filterMap_append, List.nodup_append] at hnodup
  exact ⟨fun i event delivery partition hm ↦
    h.wellFormed i event delivery partition (List.mem_append_left _ hm), hnodup.1⟩

/-- The row of an identifier is the same in a longer table. -/
theorem Table.fetchEvent_of_prefix {table table' : Table} (hp : table <+: table') {eventId : String}
    {row : Row} (h : table.fetchEvent eventId = some row) :
    table'.fetchEvent eventId = some row := by
  obtain ⟨rows, rfl⟩ := hp
  rw [fetchEvent, List.find?_append, ← fetchEvent, h, Option.some_or]

/-- No statement changes the table. -/
theorem Table.modify_eq (table : Table) (m : Modification) {table' : Table}
    (h : table.modify m = .ok table') : table' = table := by
  rw [modify] at h
  split at h
  · cases h
  · next hn =>
    cases h
    have hn (row : Row) (hr : row ∈ table) : m.affects row = false :=
      Bool.eq_false_iff.mpr (List.find?_eq_none.mp hn row hr)
    cases m with
    | update affects set =>
      refine (List.map_congr_left fun row hr ↦ ?_).trans (List.map_id table)
      exact if_neg (Bool.eq_false_iff.mp (hn row hr))
    | delete affects =>
      refine List.filter_eq_self.mpr fun row hr ↦ ?_
      rw [show affects row = false from hn row hr]
      rfl

namespace ProducerRun
variable {sha256 : String → String} {run : ProducerRun}

private theorem connected_step (call : ProducerCall) :
    (run.step sha256 call).producer.connected = run.producer.connected :=
  connected_exec run [call]

private theorem publications_publish (event : AuditEvent) (delivery : Delivery) :
    (run.step sha256 (.publish event delivery)).publications =
      run.publications ++ [⟨run.producer.complete sha256 event, delivery⟩] := by
  rw [step, publish_fst]

private theorem published_publish (event : AuditEvent) (delivery : Delivery) :
    (run.step sha256 (.publish event delivery)).published =
      run.published ++ [run.producer.complete sha256 event] := by
  rw [published, publications_publish, List.map_append, published, List.map_singleton]

/-- What has arrived after an event is published. -/
theorem mem_arrived_publish {event e : AuditEvent} {delivery : Delivery} :
    e ∈ (run.step sha256 (.publish event delivery)).arrived ↔ e ∈ run.arrived ∨
      e = run.producer.complete sha256 event ∧ run.producer.connected ∧ delivery.arrived := by
  rw [arrived, connected_step, publications_publish, List.filter_append, List.map_append,
    List.mem_append]
  refine or_congr_right ?_
  rw [List.filter_singleton]
  by_cases ha : run.producer.connected ∧ delivery.arrived
  · simp [ha]
  · simp [ha]

private theorem arrived_sublist (run : ProducerRun) : run.arrived.Sublist run.published :=
  List.filter_sublist.map _

/-- What is acknowledged has arrived. -/
theorem arrived_of_acknowledged {e : AuditEvent} (h : e ∈ run.acknowledged) : e ∈ run.arrived := by
  obtain ⟨p, hp, rfl⟩ := List.mem_map.mp h
  obtain ⟨hp, ha⟩ := List.mem_filter.mp hp
  obtain ⟨hc, hd⟩ := of_decide_eq_true ha
  refine List.mem_map_of_mem (List.mem_filter.mpr ⟨hp, decide_eq_true ⟨hc, ?_⟩⟩)
  rw [hd]
  rfl

end ProducerRun

section
variable {P M : Type} [DecidableEq P] {decode : M → Option AuditEvent}
  {dumps : List (String × Value) → Option String} {s s' : AuditConsumer P M}

/-- What a step of the consumer does to the topic and to the store. -/
theorem AuditConsumer.step_cases {a : ConsumerStep P M} (h : s.step decode dumps a = some s') :
    (∃ p m, a = .produce p m ∧ s'.topic = s.topic.produce p m ∧ s'.table = s.table) ∨
      s'.topic.log = s.topic.log ∧ (s'.table = s.table ∨ ∃ m ∈ s.topic.batch, ∃ event,
        decode m = some event ∧ s'.table = s.table.insert (event.stored dumps)) := by
  cases a with
  | produce p m =>
    cases h
    exact .inl ⟨p, m, rfl, rfl, rfl⟩
  | start =>
    rw [AuditConsumer.step, Option.ite_none_left_eq_some] at h
    cases h.2
    exact .inr ⟨rfl, .inl rfl⟩
  | poll commit records =>
    rw [AuditConsumer.step, Option.ite_none_right_eq_some] at h
    cases h.2
    refine .inr ⟨?_, .inl rfl⟩
    rw [Subscription.log_poll]
    cases commit <;> rfl
  | handle attempt =>
    rw [AuditConsumer.step] at h
    split at h
    · next m rest _ hb =>
      cases h
      refine .inr ⟨rfl, ?_⟩
      show (tryPersist decode dumps attempt m s.table).1 = _ ∨ _
      rw [tryPersist]
      split
      · exact .inl rfl
      · next table' hp =>
        obtain ⟨event, hd, hw⟩ := Option.bind_eq_some_iff.mp hp
        rw [persist, Option.ite_none_right_eq_some] at hw
        obtain ⟨-, ⟨⟩⟩ := hw
        have hins : ∃ m ∈ s.topic.batch, ∃ event', decode m = some event' ∧
            s.table.insert (event.stored dumps) = s.table.insert (event'.stored dumps) :=
          ⟨m, hb ▸ List.mem_cons_self, event, hd, rfl⟩
        cases attempt with
        | answered => exact .inr hins
        | failed written =>
          cases written with
          | true => exact .inr hins
          | false => exact .inl rfl
    · cases h
  | close commit =>
    rw [AuditConsumer.step, Option.ite_none_right_eq_some] at h
    cases h.2
    refine .inr ⟨?_, .inl rfl⟩
    cases commit <;> rfl
  | crash =>
    rw [AuditConsumer.step, Option.ite_none_right_eq_some] at h
    cases h.2
    exact .inr ⟨rfl, .inl rfl⟩

private theorem Table.prefix_insert (table : Table) (row : Row) : table <+: table.insert row := by
  rw [Table.insert]
  split
  · exact List.prefix_refl _
  · exact List.prefix_append _ _

private theorem Table.mem_insert {table : Table} {row row' : Row} (h : row' ∈ table.insert row) :
    row' ∈ table ∨ row' = row := by
  rw [Table.insert] at h
  split at h
  · exact .inl h
  · exact (List.mem_append.mp h).imp_right List.mem_singleton.mp

end

private theorem length_of_mapM {α β : Type} {f : α → Option β} {l : List α} {l' : List β}
    (h : l.mapM f = some l') : l'.length = l.length := by
  induction l generalizing l' with
  | nil =>
    cases h
    rfl
  | cons a l ih =>
    rw [List.mapM_cons] at h
    obtain ⟨b, -, h⟩ := Option.bind_eq_some_iff.mp h
    obtain ⟨bs, hbs, h⟩ := Option.bind_eq_some_iff.mp h
    cases h
    exact congrArg (· + 1) (ih hbs)

/-- The number of events that is reported is the number of rows. -/
theorem eventCount_of_verifyEndpoint {sha256 : String → String} {agentId : String}
    {rows : List Row} {report : ChainReport}
    (h : verifyEndpoint sha256 agentId (.ok rows) = .ok report) :
    report.eventCount = rows.length := by
  cases rows with
  | nil =>
    cases h
    rfl
  | cons row rows =>
    rw [verifyEndpoint] at h
    · split at h
      · cases h
      · next events hm =>
        cases h
        exact length_of_mapM hm
    · intro he
      cases he

namespace Pipeline

section
variable {ι P : Type} {format : WireFormat} {dumps : List (String × Value) → Option String}

/-- What every step preserves, with what has become of the events so far. -/
structure Kept (format : WireFormat) (dumps : List (String × Value) → Option String)
    (ids : List String) (s : Pipeline ι P) : Prop where
  sound : Sound s.consumer
  issued : ∀ i, ∀ e ∈ (s.producers i).published, e.eventId ∈ ids ∧ e.WellFormed
  nodup : ∀ i, ((s.producers i).published.map AuditEvent.eventId).Nodup
  apart : ∀ i j, ∀ e ∈ (s.producers i).published, ∀ e' ∈ (s.producers j).published,
    e.eventId = e'.eventId → i = j
  messages : ∀ p, ∀ m ∈ s.consumer.topic.log p, ∃ i, ∃ e ∈ (s.producers i).arrived,
    e.dumpJson format = some m
  arrived : ∀ i, ∀ e ∈ (s.producers i).arrived, ∃ p, ∃ m ∈ s.consumer.topic.log p,
    e.dumpJson format = some m
  rows : ∀ row ∈ s.consumer.table, ∃ i, ∃ e ∈ (s.producers i).arrived,
    row = (e.onWire format).stored dumps

variable {ids : List String} {s s' : Pipeline ι P}

/-- An identifier is that of one event. -/
theorem Kept.unique (h : s.Kept format dumps ids) {i j : ι} {e e' : AuditEvent}
    (he : e ∈ (s.producers i).published) (he' : e' ∈ (s.producers j).published)
    (hid : e.eventId = e'.eventId) : i = j ∧ e = e' := by
  obtain rfl := h.apart i j e he e' he' hid
  exact ⟨rfl, List.inj_on_of_nodup_map (h.nodup i) he he' hid⟩

/-- An event that is stored has its row. -/
theorem Kept.fetchEvent (h : s.Kept format dumps ids) {i : ι} {e : AuditEvent}
    (he : e ∈ (s.producers i).published) (hs : s.consumer.table.Stores (e.onWire format)) :
    s.consumer.table.fetchEvent e.eventId = some ((e.onWire format).stored dumps) := by
  obtain ⟨row, hr, hid⟩ := h.sound.keyed.stores_iff.mp hs
  cases hf : s.consumer.table.fetchEvent e.eventId with
  | none => exact absurd (decide_eq_true hid) (List.find?_eq_none.mp hf row hr)
  | some row' =>
    rw [Table.fetchEvent] at hf
    have hid' : row'.eventId = e.eventId := by simpa using List.find?_some hf
    obtain ⟨j, e', he', rfl⟩ := h.rows row' (List.mem_of_find?_eq_some hf)
    have he' := (ProducerRun.arrived_sublist _).subset he'
    rw [(h.unique he' he hid').2]

variable {sha256 : String → String} {fresh : Fresh}

/-- The consumer goes on, the producers stay. -/
theorem Kept.consumer [DecidableEq P] (h : s.Kept format dumps ids) (hf : format.Lawful)
    {c : AuditConsumer P String} {a : ConsumerStep P String} (hp : ∀ p m, a ≠ .produce p m)
    (hc : s.consumer.step (AuditEvent.validateJson? format fresh) dumps a = some c) :
    Kept format dumps ids { s with consumer := c } := by
  obtain ⟨p, m, rfl, -⟩ | ⟨hl, ht⟩ := AuditConsumer.step_cases hc
  · exact absurd rfl (hp p m)
  refine ⟨h.sound.step hc, h.issued, h.nodup, h.apart, hl ▸ h.messages, hl ▸ h.arrived, ?_⟩
  rcases ht with ht | ⟨m, hm, event, hd, ht⟩
  · exact ht ▸ h.rows
  · intro row hr
    rcases Table.mem_insert (ht ▸ hr) with hr | rfl
    · exact h.rows row hr
    · obtain ⟨p, hm⟩ := h.sound.delivered.batch m hm
      obtain ⟨i, e, he, hj⟩ := h.messages p m (List.mem_of_mem_take hm)
      have hw := (h.issued i e ((ProducerRun.arrived_sublist _).subset he)).2
      have hv := ((wire_roundTrip hf loadsJson_parse hw fresh).2.2 m hj).1
      cases hd.symm.trans hv
      exact ⟨i, e, he, rfl⟩

/-- An event is published, and its message is in the topic if it has arrived. -/
theorem Kept.publish [DecidableEq ι] (h : s.Kept format dumps ids) (i : ι) {event : AuditEvent}
    (delivery : Delivery) (hw : event.WellFormed) (hid : event.eventId ∉ ids)
    {c : AuditConsumer P String} (hs : Sound c) (ht : c.table = s.consumer.table)
    (hm : ∀ p, ∀ m ∈ c.topic.log p, m ∈ s.consumer.topic.log p ∨
      ((s.producers i).producer.connected ∧ delivery.arrived) ∧
        ((s.producers i).producer.complete sha256 event).dumpJson format = some m)
    (hl : ∀ p, ∀ m ∈ s.consumer.topic.log p, m ∈ c.topic.log p)
    (ha : (s.producers i).producer.connected ∧ delivery.arrived → ∃ p, ∃ m ∈ c.topic.log p,
        ((s.producers i).producer.complete sha256 event).dumpJson format = some m) :
    Kept format dumps (ids ++ [event.eventId]) ⟨Function.update s.producers i
      ((s.producers i).step sha256 (.publish event delivery)), c⟩ := by
  set e := (s.producers i).producer.complete sha256 event with he
  have hpub : ((s.producers i).step sha256 (.publish event delivery)).published =
      (s.producers i).published ++ [e] := ProducerRun.published_publish ..
  generalize hupd : Function.update s.producers i
    ((s.producers i).step sha256 (.publish event delivery)) = producers
  have hself : producers i = (s.producers i).step sha256 (.publish event delivery) := by
    rw [← hupd, Function.update_self]
  have hother (j : ι) (hj : j ≠ i) : producers j = s.producers j := by
    rw [← hupd, Function.update_of_ne hj]
  have hnew (j : ι) (x : AuditEvent) : x ∈ (producers j).published ↔
      x ∈ (s.producers j).published ∨ j = i ∧ x = e := by
    by_cases hj : j = i
    · subst hj
      rw [hself, hpub, List.mem_append, List.mem_singleton, eq_self, true_and]
    · rw [hother j hj, or_iff_left fun hx ↦ hj hx.1]
  have harr (j : ι) (x : AuditEvent) : x ∈ (producers j).arrived ↔ x ∈ (s.producers j).arrived ∨
      j = i ∧ x = e ∧ (s.producers i).producer.connected ∧ delivery.arrived := by
    by_cases hj : j = i
    · subst hj
      rw [hself, ProducerRun.mem_arrived_publish, ← he, eq_self, true_and]
    · rw [hother j hj, or_iff_left fun hx ↦ hj hx.1]
  have hold (j : ι) (x : AuditEvent) (hx : x ∈ (s.producers j).published) :
      x.eventId ≠ event.eventId := fun hn ↦ hid (hn ▸ (h.issued j x hx).1)
  refine ⟨hs, fun j x hx ↦ ?_, fun j ↦ ?_, fun j k x hx y hy hxy ↦ ?_, fun p m hmem ↦ ?_,
    fun j x hx ↦ ?_, fun row hr ↦ ?_⟩
  · rcases (hnew j x).mp hx with hx | ⟨-, rfl⟩
    · exact ⟨List.mem_append_left _ (h.issued j x hx).1, (h.issued j x hx).2⟩
    · exact ⟨List.mem_append_right _ (List.mem_singleton_self _),
        hw.eventId, hw.timestamp, hw.executionResult⟩
  · by_cases hj : j = i
    · subst hj
      show ((producers j).published.map _).Nodup
      rw [hself, hpub, List.map_append, List.map_singleton,
        ← List.concat_eq_append, List.nodup_concat]
      refine ⟨fun hmem ↦ ?_, h.nodup j⟩
      obtain ⟨x, hx, hxe⟩ := List.mem_map.mp hmem
      exact hold j x hx hxe
    · show ((producers j).published.map _).Nodup
      rw [hother j hj]
      exact h.nodup j
  · rcases (hnew j x).mp hx with hx | ⟨hj, rfl⟩ <;> rcases (hnew k y).mp hy with hy | ⟨hk, rfl⟩
    · exact h.apart j k x hx y hy hxy
    · exact absurd hxy (hold j x hx)
    · exact absurd hxy.symm (hold k y hy)
    · exact hj.trans hk.symm
  · rcases hm p m hmem with hmem | ⟨hd, hj⟩
    · obtain ⟨j, x, hx, hxm⟩ := h.messages p m hmem
      exact ⟨j, x, (harr j x).mpr (.inl hx), hxm⟩
    · exact ⟨i, e, (harr i e).mpr (.inr ⟨rfl, rfl, hd⟩), hj⟩
  · rcases (harr j x).mp hx with hx | ⟨-, rfl, hd⟩
    · obtain ⟨p, m, hmem, hxm⟩ := h.arrived j x hx
      exact ⟨p, m, hl p m hmem, hxm⟩
    · exact ha hd
  · obtain ⟨j, x, hx, hrow⟩ := h.rows row (ht ▸ hr)
    exact ⟨j, x, (harr j x).mpr (.inl hx), hrow⟩

variable [DecidableEq ι] [DecidableEq P]

private theorem step_consume {a : ConsumerStep P String}
    (ha : s.step sha256 format fresh dumps (.consume a) = some s') :
    (∀ p m, a ≠ .produce p m) ∧ ∃ c,
      s.consumer.step (AuditEvent.validateJson? format fresh) dumps a = some c ∧
        s' = { s with consumer := c } := by
  cases a with
  | produce p m => cases ha
  | _ =>
    simp only [Pipeline.step, Option.bind_eq_bind, Option.bind_eq_some_iff] at ha
    obtain ⟨c, hc, he⟩ := ha
    exact ⟨(fun _ _ hp ↦ by cases hp), c, hc, (Option.some.inj he).symm⟩

omit [DecidableEq P] in
/-- Draining a producer leaves what it has published. -/
theorem Kept.drain (h : s.Kept format dumps ids) (i : ι) : Kept format dumps ids
    { s with producers := Function.update s.producers i ((s.producers i).step sha256 .drain) } := by
  have hpub (j : ι) : (Function.update s.producers i ((s.producers i).step sha256 .drain)
      j).published = (s.producers j).published := by
    by_cases hj : j = i
    · subst hj
      rw [Function.update_self]
      rfl
    · rw [Function.update_of_ne hj]
  have harr (j : ι) : (Function.update s.producers i ((s.producers i).step sha256 .drain)
      j).arrived = (s.producers j).arrived := by
    by_cases hj : j = i
    · subst hj
      rw [Function.update_self]
      rfl
    · rw [Function.update_of_ne hj]
  refine ⟨h.sound, ?_, ?_, ?_, ?_, ?_, ?_⟩
  all_goals simp only [hpub, harr]
  · exact h.issued
  · exact h.nodup
  · exact h.apart
  · exact h.messages
  · exact h.arrived
  · exact h.rows

/-- A step keeps the events as they were published. -/
theorem Kept.step (h : s.Kept format dumps ids) (hf : format.Lawful) {a : PipelineStep ι P}
    (hw : ∀ i event delivery partition, a = .publish i event delivery partition →
      event.WellFormed)
    (hid : ∀ id ∈ a.eventId?, id ∉ ids)
    (ha : s.step sha256 format fresh dumps a = some s') :
    s'.Kept format dumps (ids ++ a.eventId?.toList) := by
  cases a with
  | publish i event delivery partition =>
    have hw := hw i event delivery partition rfl
    have hid := hid event.eventId rfl
    rw [Pipeline.step] at ha
    split at ha
    · next hd =>
      simp only [Option.bind_eq_bind, Option.bind_eq_some_iff] at ha
      obtain ⟨json, hj, c, hc, ⟨⟩⟩ := ha
      have hs := h.sound.step hc
      cases hc
      refine h.publish i delivery hw hid hs rfl (fun p m hm ↦ ?_) (fun p m hm ↦ ?_)
        fun _ ↦ ⟨partition, json, ?_, hj⟩
      · by_cases hp : p = partition
        · subst hp
          rw [Subscription.log_produce_self] at hm
          rcases List.mem_append.mp hm with hm | hm
          · exact .inl hm
          · exact .inr ⟨hd, List.mem_singleton.mp hm ▸ hj⟩
        · rw [Subscription.log_produce_of_ne hp] at hm
          exact .inl hm
      · by_cases hp : p = partition
        · subst hp
          rw [Subscription.log_produce_self]
          exact List.mem_append_left _ hm
        · rwa [Subscription.log_produce_of_ne hp]
      · rw [Subscription.log_produce_self]
        exact List.mem_append_right _ (List.mem_singleton_self _)
    · next hn =>
      cases ha
      refine h.publish i delivery hw hid h.sound rfl (fun _ _ ↦ .inl) (fun _ _ ↦ id)
        fun hd ↦ absurd hd hn
  | drain i =>
    cases ha
    show Kept _ _ (ids ++ []) _
    rw [List.append_nil]
    exact h.drain i
  | consume a =>
    show Kept _ _ (ids ++ []) _
    rw [List.append_nil]
    obtain ⟨hp, c, hc, rfl⟩ := step_consume ha
    exact h.consumer hf hp hc
  | modify m =>
    show Kept _ _ (ids ++ []) _
    rw [List.append_nil]
    rw [Pipeline.step] at ha
    split at ha
    · next table hm =>
      cases ha
      rw [Table.modify_eq _ m hm]
      exact h
    · cases ha
      exact h

/-- Whatever happens, the consumer stays as it is or takes a step. -/
theorem consumer_of_step {a : PipelineStep ι P}
    (ha : s.step sha256 format fresh dumps a = some s') :
    s'.consumer = s.consumer ∨ ∃ b : ConsumerStep P String,
      s.consumer.step (AuditEvent.validateJson? format fresh) dumps b = some s'.consumer ∧
        (b.Commits → a = .consume b) := by
  cases a with
  | publish i event delivery partition =>
    rw [Pipeline.step] at ha
    split at ha
    · simp only [Option.bind_eq_bind, Option.bind_eq_some_iff] at ha
      obtain ⟨json, -, c, hc, ⟨⟩⟩ := ha
      exact .inr ⟨_, hc, False.elim⟩
    · cases ha
      exact .inl rfl
  | drain i =>
    cases ha
    exact .inl rfl
  | consume a =>
    obtain ⟨-, c, hc, rfl⟩ := step_consume ha
    exact .inr ⟨a, hc, fun _ ↦ rfl⟩
  | modify m =>
    rw [Pipeline.step] at ha
    split at ha
    · next table hm =>
      cases ha
      rw [Table.modify_eq _ m hm]
      exact .inl rfl
    · cases ha
      exact .inl rfl

/-- The store only grows. -/
theorem table_grows {a : PipelineStep ι P}
    (ha : s.step sha256 format fresh dumps a = some s') :
    s.consumer.table <+: s'.consumer.table := by
  rcases consumer_of_step ha with hc | ⟨b, hb, -⟩
  · rw [hc]
  · obtain ⟨p, m, -, -, ht⟩ | ⟨-, ht | ⟨m, -, event, -, ht⟩⟩ := AuditConsumer.step_cases hb
    · rw [ht]
    · rw [ht]
    · rw [ht]
      exact Table.prefix_insert ..

/-- Nothing that is committed is lost by a step that makes good what has failed if it commits. -/
theorem covered_step {a : PipelineStep ι P} (hs : Sound s.consumer)
    (h : s.consumer.topic.Covered
      (Saved (AuditEvent.validateJson? format fresh) s.consumer.table))
    (ha : s.step sha256 format fresh dumps a = some s')
    (hc : ∀ b : ConsumerStep P String, a = .consume b → b.Commits →
      s.consumer.MadeGood (AuditEvent.validateJson? format fresh)) :
    s'.consumer.topic.Covered
      (Saved (AuditEvent.validateJson? format fresh) s'.consumer.table) := by
  rcases consumer_of_step ha with he | ⟨b, hb, hcommits⟩
  · rw [he]
    exact h
  · exact Audit.covered_step hs h hb fun hcb ↦ hc b (hcommits hcb) hcb

/-! ### Runs -/

variable {connected : ι → Bool} {steps before : List (PipelineStep ι P)}

/-- Two sequences of steps, one after the other. -/
theorem run_append (steps after : List (PipelineStep ι P)) :
    run sha256 format fresh dumps connected (steps ++ after) =
      (run sha256 format fresh dumps connected steps).bind fun s ↦
        after.foldlM (Pipeline.step sha256 format fresh dumps) s :=
  List.foldlM_append

/-- The store of an earlier point of a run is the beginning of that of a later point. -/
theorem table_grows_run {after : List (PipelineStep ι P)}
    (h : after.foldlM (Pipeline.step sha256 format fresh dumps) s = some s') :
    s.consumer.table <+: s'.consumer.table := by
  induction after generalizing s with
  | nil =>
    cases h
    exact List.prefix_refl _
  | cons a after ih =>
    rw [List.foldlM_cons] at h
    obtain ⟨s₁, ha, h⟩ := Option.bind_eq_some_iff.mp h
    exact (table_grows ha).trans (ih h)

end

variable {ι P : Type} [DecidableEq ι] [DecidableEq P] {sha256 : String → String}
  {format : WireFormat} {fresh : Fresh} {dumps : List (String × Value) → Option String}
  {connected : ι → Bool} {steps : List (PipelineStep ι P)} {s : Pipeline ι P}

/-- A run with one more step. -/
theorem run_concat (steps : List (PipelineStep ι P)) (a : PipelineStep ι P) :
    run sha256 format fresh dumps connected (steps ++ [a]) =
      (run sha256 format fresh dumps connected steps).bind fun s ↦
        s.step sha256 format fresh dumps a := by
  rw [run_append]
  apply Option.bind_congr
  intro s _
  rw [List.foldlM_cons]
  cases s.step sha256 format fresh dumps a <;> rfl

/-- Offsets are committed only when what has failed since the start is in the store after all. -/
def CommitsMadeGood (sha256 : String → String) (format : WireFormat) (fresh : Fresh)
    (dumps : List (String × Value) → Option String) (connected : ι → Bool)
    (steps : List (PipelineStep ι P)) : Prop :=
  ∀ before b, before ++ [.consume b] <+: steps → b.Commits →
    ∀ s, run sha256 format fresh dumps connected before = some s →
      s.consumer.MadeGood (AuditEvent.validateJson? format fresh)

/-- After any proper run the events are kept as they were published. -/
theorem kept_of_run (hf : format.Lawful) (hp : Proper steps)
    (h : run sha256 format fresh dumps connected steps = some s) :
    s.Kept format dumps (steps.filterMap PipelineStep.eventId?) := by
  induction steps using List.reverseRecOn generalizing s with
  | nil =>
    cases h
    have hnil {α : Type} {C : α → Prop} (x : α) (hx : x ∈ []) : C x := absurd hx List.not_mem_nil
    exact ⟨⟨List.nodup_nil, Subscription.delivered_empty⟩, fun _ ↦ hnil, fun _ ↦ .nil,
      fun _ _ ↦ hnil, fun _ ↦ hnil, fun _ ↦ hnil, hnil⟩
  | append_singleton steps a ih =>
    rw [run_concat] at h
    obtain ⟨s₁, hs, ha⟩ := Option.bind_eq_some_iff.mp h
    have hk := ih hp.of_append hs
    have hnodup := hp.nodup
    rw [List.filterMap_append, List.nodup_append] at hnodup
    have hstep := hk.step hf (fun i event delivery partition he ↦ hp.wellFormed i event delivery
      partition (List.mem_append_right _ (he ▸ List.mem_singleton_self _))) ?_ ha
    · rw [List.filterMap_append]
      cases hid : a.eventId? with
      | none => simpa [hid] using hstep
      | some id => simpa [hid] using hstep
    · intro id hid hmem
      exact hnodup.2.2 id hmem id (by simpa using hid) rfl

/-- Where every commit is made good, what is committed is saved. -/
theorem covered_of_run (hf : format.Lawful) (hp : Proper steps)
    (hc : CommitsMadeGood sha256 format fresh dumps connected steps)
    (h : run sha256 format fresh dumps connected steps = some s) :
    s.consumer.topic.Covered
      (Saved (AuditEvent.validateJson? format fresh) s.consumer.table) := by
  induction steps using List.reverseRecOn generalizing s with
  | nil =>
    cases h
    exact Subscription.covered_empty
  | append_singleton steps a ih =>
    rw [run_concat] at h
    obtain ⟨s₁, hs, ha⟩ := Option.bind_eq_some_iff.mp h
    have hp' := hp.of_append
    refine covered_step (kept_of_run hf hp' hs).sound (ih hp' (fun before b hb ↦ ?_) hs) ha
      fun b hb hcb ↦ ?_
    · exact hc before b (hb.trans (List.prefix_append _ _))
    · exact hc steps b (hb ▸ List.prefix_refl _) hcb s₁ hs

/-- Every producer has been called, from its beginning on. -/
theorem producer_of_run (h : run sha256 format fresh dumps connected steps = some s) (i : ι) :
    ∃ calls, s.producers i = (ProducerRun.new (connected i)).exec sha256 calls := by
  induction steps using List.reverseRecOn generalizing s with
  | nil =>
    cases h
    exact ⟨[], rfl⟩
  | append_singleton steps a ih =>
    rw [run_concat] at h
    obtain ⟨s₁, hs, ha⟩ := Option.bind_eq_some_iff.mp h
    obtain ⟨calls, hi⟩ := ih hs
    have hcalled (j : ι) (call : ProducerCall)
        (hj : s.producers = Function.update s₁.producers j ((s₁.producers j).step sha256 call)) :
        ∃ calls, s.producers i = (ProducerRun.new (connected i)).exec sha256 calls := by
      by_cases hij : i = j
      · subst hij
        refine ⟨calls ++ [call], ?_⟩
        rw [hj, Function.update_self, hi, ProducerRun.exec, ProducerRun.exec, List.foldl_concat]
      · exact ⟨calls, by rw [hj, Function.update_of_ne hij, hi]⟩
    cases a with
    | publish j event delivery partition =>
      apply hcalled j (.publish event delivery)
      rw [Pipeline.step] at ha
      split at ha
      · simp only [Option.bind_eq_bind, Option.bind_eq_some_iff] at ha
        obtain ⟨json, -, c, -, ⟨⟩⟩ := ha
        rfl
      · cases ha
        rfl
    | drain j =>
      cases ha
      exact hcalled j .drain rfl
    | consume b =>
      obtain ⟨-, c, -, rfl⟩ := step_consume ha
      exact ⟨calls, hi⟩
    | modify m =>
      rw [Pipeline.step] at ha
      split at ha <;> cases ha <;> exact ⟨calls, hi⟩

/-- All that is in the topic was read and committed. -/
def CaughtUp (s : Pipeline ι P) : Prop :=
  ∀ p, s.consumer.topic.committed p = (s.consumer.topic.log p).length

/-- The agent publishes by one producer, each event later than the one before. -/
structure Owns (s : Pipeline ι P) (agentId : String) (i : ι) : Prop where
  own : ∀ j, ∀ e ∈ (s.producers j).published, e.agentId = agentId ↔ j = i
  later : (s.producers i).published.Pairwise fun a b ↦ a.timestamp.instant < b.timestamp.instant

/-- The rows that the endpoint is given, in whatever order the database breaks ties. -/
structure Fetched (table : Table) (agentId : String) (rows : List Row) : Prop where
  perm : rows.Perm (table.filter (·.agentId = agentId))
  ordered : rows.Pairwise fun a b ↦ a.timestamp.instant ≤ b.timestamp.instant

/-- Once the consumer has caught up, the rows of an agent are the events of its producer that have
arrived, in their order. -/
theorem Fetched.eq_arrived (hf : format.Lawful) (hp : Proper steps)
    (h : run sha256 format fresh dumps connected steps = some s)
    (hc : CommitsMadeGood sha256 format fresh dumps connected steps) (hu : s.CaughtUp)
    {agentId : String} {i : ι} (ho : s.Owns agentId i) {rows : List Row}
    (hr : Fetched s.consumer.table agentId rows) :
    rows = (s.producers i).arrived.map fun e ↦ (e.onWire format).stored dumps := by
  have hk := kept_of_run hf hp h
  have hsub := (s.producers i).arrived_sublist
  have hinst {e : AuditEvent} (he : e ∈ (s.producers i).arrived) :
      ((e.onWire format).stored dumps).timestamp = e.timestamp := by
    obtain ⟨n, -, ht⟩ := (hk.issued i e (hsub.subset he)).2.timestamp
    show e.timestamp.toUtc = e.timestamp
    rw [ht]
    exact if_pos rfl
  have hlater : ((s.producers i).arrived.map fun e ↦ (e.onWire format).stored dumps).Pairwise
      fun a b ↦ a.timestamp.instant < b.timestamp.instant := by
    rw [List.pairwise_map]
    refine (ho.later.sublist hsub).imp_of_mem fun ha hb hab ↦ ?_
    rwa [hinst ha, hinst hb]
  have hperm : (s.consumer.table.filter (·.agentId = agentId)).Perm
      ((s.producers i).arrived.map fun e ↦ (e.onWire format).stored dumps) := by
    have hkeyed : s.consumer.table.Nodup := List.Nodup.of_map _ hk.sound.keyed
    refine (List.perm_ext_iff_of_nodup (hkeyed.filter _) ?_).mpr fun row ↦ ?_
    · exact hlater.imp fun hab he ↦ absurd (he ▸ hab) (lt_irrefl _)
    rw [List.mem_filter, List.mem_map, decide_eq_true_eq]
    constructor
    · rintro ⟨hm, ha⟩
      obtain ⟨j, e, he, rfl⟩ := hk.rows row hm
      cases (ho.own j e ((ProducerRun.arrived_sublist _).subset he)).mp ha
      exact ⟨e, he, rfl⟩
    · rintro ⟨e, he, rfl⟩
      have hpub := hsub.subset he
      obtain ⟨p, m, hm, hj⟩ := hk.arrived i e he
      have hcm : s.consumer.topic.Committed m := by
        refine ⟨p, ?_⟩
        rwa [hu p, List.take_length]
      have hs := (covered_of_run hf hp hc h).committed m hcm (e.onWire format)
        ((wire_roundTrip hf loadsJson_parse (hk.issued i e hpub).2 fresh).2.2 m hj).1
      exact ⟨List.mem_of_find?_eq_some (hk.fetchEvent hpub hs), (ho.own i e hpub).mpr rfl⟩
  have hnodup : (((s.producers i).arrived.map fun e ↦ (e.onWire format).stored dumps).map
      (·.timestamp.instant)).Nodup := (List.pairwise_map.mpr hlater).imp ne_of_lt
  have hrows := hr.perm.trans hperm
  refine hrows.eq_of_pairwise (fun a b ha hb hab hba ↦ ?_) hr.ordered (hlater.imp le_of_lt)
  exact List.inj_on_of_nodup_map hnodup (hrows.subset ha) hb (le_antisymm hab hba)

/-- A reading without a result. -/
def plainEvent : AuditEvent := { readingEvent with executionResult := none }

/-- It is published, read and written, and its offset is committed. -/
def plainSteps : List (PipelineStep Unit Unit) :=
  [.publish () plainEvent .acknowledged (), .consume .start, .consume (.poll true [((), 500)]),
    .consume (.handle .answered), .consume (.poll true [])]

private theorem plainSteps_proper : Proper plainSteps where
  wellFormed i event delivery partition hm := by
    have he : event = plainEvent := by
      simp only [plainSteps, List.mem_cons, List.not_mem_nil] at hm
      rcases hm with h | h | h | h | h | h <;> cases h
      rfl
    rw [he]
    exact ⟨readingEvent_wellFormed.eventId, readingEvent_wellFormed.timestamp, nofun⟩
  nodup := by decide

/-- The event as it is published. -/
def plainPublished : AuditEvent := (AuditProducer.new true).complete tagged plainEvent

private theorem plainPublished_wellFormed : plainPublished.WellFormed :=
  ⟨readingEvent_wellFormed.eventId, readingEvent_wellFormed.timestamp, nofun⟩

private theorem plainPublished_storable : plainPublished.Storable := by
  have hhash : '\x00' ∉ plainPublished.eventHash.toList := by
    show '\x00' ∉ ("sha256:" ++ Json.dumpsSorted _).toList
    rw [String.toList_append, List.mem_append]
    rintro (h | h)
    · exact absurd h (by decide)
    · exact Json.nul_not_mem_dumpsSorted _ h
  rw [AuditEvent.Storable, AuditEvent.texts]
  simp only [List.forall_mem_append, List.forall_mem_cons]
  refine ⟨⟨?_, ?_, ?_, ?_, ?_, ?_, ?_, hhash, ?_, nofun⟩, nofun⟩ <;> decide

/-- The run, with the states before offsets are committed. -/
theorem plainSteps_run : ∃ s₂ s₄ s json,
    run tagged isoWire ⟨"", .utc 0⟩ (fun _ ↦ none) (fun _ ↦ true) (plainSteps.take 2) = some s₂ ∧
      s₂.consumer.topic.failed = [] ∧
    run tagged isoWire ⟨"", .utc 0⟩ (fun _ ↦ none) (fun _ ↦ true) (plainSteps.take 4) = some s₄ ∧
      s₄.consumer.topic.failed = [] ∧
    run tagged isoWire ⟨"", .utc 0⟩ (fun _ ↦ none) (fun _ ↦ true) plainSteps = some s ∧
      plainPublished.dumpJson isoWire = some json ∧ s.consumer.topic.log () = [json] ∧
      s.consumer.topic.committed () = 1 ∧
      (s.producers ()).published = [plainPublished] ∧
      (s.producers ()).arrived = [plainPublished] := by
  have hw := wire_roundTrip isoWire_lawful loadsJson_parse plainPublished_wellFormed ⟨"", .utc 0⟩
  obtain ⟨json, hj⟩ := Option.isSome_iff_exists.mp (hw.1.mpr nofun)
  have hdec : AuditEvent.validateJson? isoWire ⟨"", .utc 0⟩ json = some plainPublished :=
    (hw.2.2 json hj).1
  let producers : Unit → ProducerRun := Function.update (fun _ ↦ .new true) ()
    ((ProducerRun.new true).step tagged (.publish plainEvent .acknowledged))
  let topic₁ : Subscription Unit String := Subscription.empty.produce () json
  let topic₃ := topic₁.start.commit.poll [((), 500)]
  have hs : (Pipeline.new fun _ ↦ true).step tagged isoWire ⟨"", .utc 0⟩ (fun _ ↦ none)
      (.publish () plainEvent .acknowledged ()) = some ⟨producers, ⟨topic₁, []⟩⟩ := by
    have hj' : (((Pipeline.new (P := Unit) fun _ ↦ true).producers ()).producer.complete tagged
      plainEvent).dumpJson isoWire = some json := hj
    rw [Pipeline.step, if_pos ⟨rfl, rfl⟩, hj']
    rfl
  have h₁ : run tagged isoWire ⟨"", .utc 0⟩ (fun _ ↦ none) (fun _ ↦ true) (plainSteps.take 1) =
      some ⟨producers, ⟨topic₁, []⟩⟩ := by
    rw [show plainSteps.take 1 = [] ++ [.publish () plainEvent .acknowledged ()] from rfl,
      run_concat]
    exact hs
  have h₂ : run tagged isoWire ⟨"", .utc 0⟩ (fun _ ↦ none) (fun _ ↦ true) (plainSteps.take 2) =
      some ⟨producers, ⟨topic₁.start, []⟩⟩ := by
    rw [show plainSteps.take 2 = plainSteps.take 1 ++ [.consume .start] from rfl, run_concat, h₁]
    rfl
  have h₃ : run tagged isoWire ⟨"", .utc 0⟩ (fun _ ↦ none) (fun _ ↦ true) (plainSteps.take 3) =
      some ⟨producers, ⟨topic₃, []⟩⟩ := by
    rw [show plainSteps.take 3 = plainSteps.take 2 ++ [.consume (.poll true [((), 500)])] from rfl,
      run_concat, h₂]
    rfl
  have hp : tryPersist (AuditEvent.validateJson? isoWire ⟨"", .utc 0⟩) (fun _ ↦ none) .answered json
      [] = ([plainPublished.stored fun _ ↦ none], true) := by
    rw [tryPersist, hdec, Option.bind_some, persist_of_storable rfl plainPublished_storable]
    rfl
  have h₄ : run tagged isoWire ⟨"", .utc 0⟩ (fun _ ↦ none) (fun _ ↦ true) (plainSteps.take 4) =
      some ⟨producers, ⟨topic₃.finish json [] true, [plainPublished.stored fun _ ↦ none]⟩⟩ := by
    rw [show plainSteps.take 4 = plainSteps.take 3 ++ [.consume (.handle .answered)] from rfl,
      run_concat, h₃, Option.bind_some]
    have hh : AuditConsumer.step (AuditEvent.validateJson? isoWire ⟨"", .utc 0⟩) (fun _ ↦ none)
        ⟨topic₃, []⟩ (.handle .answered) =
          some ⟨topic₃.finish json [] true, [plainPublished.stored fun _ ↦ none]⟩ := by
      have hb : topic₃.batch = [json] := rfl
      have hr : topic₃.running = true := rfl
      simp only [AuditConsumer.step, hb, hr, hp]
    rw [Pipeline.step, hh]
    · rfl
    · intro _ _ h
      cases h
  have h₅ : run tagged isoWire ⟨"", .utc 0⟩ (fun _ ↦ none) (fun _ ↦ true) plainSteps =
      some ⟨producers, ⟨(topic₃.finish json [] true).commit,
        [plainPublished.stored fun _ ↦ none]⟩⟩ := by
    rw [show plainSteps = plainSteps.take 4 ++ [.consume (.poll true [])] from rfl,
      run_concat, h₄]
    rfl
  exact ⟨_, _, _, json, h₂, rfl, h₄, rfl, h₅, hj, rfl, rfl, rfl, rfl⟩

private theorem plainSteps_commitsMadeGood :
    CommitsMadeGood tagged isoWire ⟨"", .utc 0⟩ (fun _ ↦ none) (fun _ ↦ true) plainSteps := by
  obtain ⟨s₂, s₄, -, -, h₂, hf₂, h₄, hf₄, -⟩ := plainSteps_run
  intro before b hp hb s hs
  have hgood {s' : Pipeline Unit Unit} (hf : s'.consumer.topic.failed = []) (he : s = s') :
      s.consumer.MadeGood (AuditEvent.validateJson? isoWire ⟨"", .utc 0⟩) := by
    intro m hm
    rw [he, hf] at hm
    cases hm
  have hn : before.length < 5 := by
    have hl := hp.length_le
    rw [List.length_append] at hl
    exact hl
  have hbefore : before = plainSteps.take before.length :=
    List.prefix_iff_eq_take.mp ((List.prefix_append _ _).trans hp)
  have hlast : plainSteps[before.length]? = some (.consume b) := by
    obtain ⟨rest, hrest⟩ := hp
    rw [← hrest]
    simp
  generalize before.length = n at hn hbefore hlast
  subst hbefore
  rcases n with _ | _ | _ | _ | _ | n
  · cases hlast
  · cases hlast
    cases hb
  · exact hgood hf₂ (Option.some.inj (hs.symm.trans h₂))
  · cases hlast
    cases hb
  · exact hgood hf₄ (Option.some.inj (hs.symm.trans h₄))
  · omega

end Pipeline
end NhiSentinel.Audit
