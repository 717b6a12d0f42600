import NhiSentinel.Audit.Chain
import NhiSentinel.Audit.Store
import NhiSentinel.Base.Subscription

/-!
# The consumer

`run_consumer` of `audit/consumer.py`: the loop that polls Kafka, writes each message to the
store and goes on after every exception, while offsets are committed in the background. What
is below a committed offset is in the store, unless a message that failed is given up.
-/

namespace NhiSentinel.Audit
open NhiSentinel.Base

/-- What becomes of an `INSERT`: the database answers, or the connection fails, after the row was
written or before. -/
inductive Attempt where
  | answered
  | failed (written : Bool)

/-- The consumer with its topic and its store. -/
structure AuditConsumer (P M : Type) where
  topic : Subscription P M
  table : Table

/-- What happens to it. Kafka commits the offsets of earlier polls before it polls again, when
its interval is over, and when the consumer is closed; either can fail. -/
inductive ConsumerStep (P M : Type) where
  | produce (partition : P) (message : M)
  | start
  | poll (commit : Bool) (records : List (P × Nat))
  | handle (attempt : Attempt)
  | close (commit : Bool)
  | crash

section
variable {P M : Type} [DecidableEq P] (decode : M → Option AuditEvent)
  (dumps : List (String × Value) → Option String)

/-- The body of the inner loop, `consumer.py:101`: the table afterwards, and whether there was no
exception. -/
def tryPersist (attempt : Attempt) (message : M) (table : Table) : Table × Bool :=
  match (decode message).bind fun event ↦ persist dumps event table with
  | none => (table, false)
  | some table' =>
    match attempt with
    | .answered => (table', true)
    | .failed written => (if written then table' else table, false)

/-- One step, where it is possible. The loop polls when it has been through its batch, and ends
there. -/
def AuditConsumer.step (s : AuditConsumer P M) : ConsumerStep P M → Option (AuditConsumer P M)
  | .produce partition message => some { s with topic := s.topic.produce partition message }
  | .start => if s.topic.running then none else some { s with topic := s.topic.start }
  | .poll commit records =>
    if s.topic.running = true ∧ s.topic.batch = [] then
      some { s with topic := (if commit then s.topic.commit else s.topic).poll records }
    else none
  | .handle attempt =>
    match s.topic.running, s.topic.batch with
    | true, message :: rest =>
      let tried := tryPersist decode dumps attempt message s.table
      some { topic := s.topic.finish message rest tried.2, table := tried.1 }
    | _, _ => none
  | .close commit =>
    if s.topic.running = true ∧ s.topic.batch = [] then
      some { s with topic := (if commit then s.topic.commit else s.topic).stop }
    else none
  | .crash => if s.topic.running then some { s with topic := s.topic.stop } else none

/-- Before the first message. -/
def AuditConsumer.new : AuditConsumer P M := ⟨.empty, []⟩

/-- Steps one after the other from the beginning. -/
def AuditConsumer.run (steps : List (ConsumerStep P M)) : Option (AuditConsumer P M) :=
  steps.foldlM (AuditConsumer.step decode dumps) .new

end

/-! ### The store -/

/-- An event is in the table, once. -/
def Table.Stores (table : Table) (event : AuditEvent) : Prop :=
  (table.filter (·.eventId = event.eventId)).length = 1

/-- The primary key. -/
def Table.Keyed (table : Table) : Prop := (table.map Row.eventId).Nodup

section
variable {table table' : Table} {event : AuditEvent} {row : Row}
  {dumps : List (String × Value) → Option String}

/-- An insertion keeps the table keyed. -/
theorem Table.Keyed.insert (h : table.Keyed) : (table.insert row).Keyed := by
  rw [Table.insert]
  split
  · exact h
  · next hn =>
    rw [List.any_eq_true] at hn
    rw [Keyed, List.map_append, List.map_singleton, ← List.concat_eq_append, List.nodup_concat]
    refine ⟨fun hm ↦ ?_, h⟩
    obtain ⟨row', hr, he⟩ := List.mem_map.mp hm
    exact hn ⟨row', hr, decide_eq_true he⟩

/-- With a key, an event is stored when a row has its identifier. -/
theorem Table.Keyed.stores_iff (h : table.Keyed) :
    table.Stores event ↔ ∃ row ∈ table, row.eventId = event.eventId := by
  have hcount : (table.filter (·.eventId = event.eventId)).length =
      (table.map Row.eventId).count event.eventId := by
    rw [List.count, List.countP_map, List.countP_eq_length_filter]
    congr 1
  rw [Stores, hcount, List.Nodup.count h]
  simp

private theorem insert_mem_of_mem {row' : Row} (h : row' ∈ table) : row' ∈ table.insert row := by
  rw [Table.insert]
  split
  · exact h
  · exact List.mem_append_left _ h

private theorem exists_mem_insert : ∃ row' ∈ table.insert row, row'.eventId = row.eventId := by
  rw [Table.insert]
  split
  · next h =>
    obtain ⟨row', hm, he⟩ := List.any_eq_true.mp h
    exact ⟨row', hm, of_decide_eq_true he⟩
  · exact ⟨row, List.mem_append_right _ (List.mem_singleton_self _), rfl⟩

/-- An event that is written keeps the key and what is stored, and is stored. -/
theorem Table.Keyed.persist (h : table.Keyed) (hp : persist dumps event table = some table') :
    table'.Keyed ∧ table'.Stores event ∧ ∀ event', table.Stores event' → table'.Stores event' := by
  rw [Audit.persist] at hp
  split at hp
  · cases hp
    refine ⟨h.insert, h.insert.stores_iff.mpr exists_mem_insert, fun event' hs ↦ ?_⟩
    obtain ⟨row, hm, he⟩ := h.stores_iff.mp hs
    exact h.insert.stores_iff.mpr ⟨row, insert_mem_of_mem hm, he⟩
  · cases hp

end

/-! ### Steps -/

section
variable {P M : Type} {decode : M → Option AuditEvent}
  {dumps : List (String × Value) → Option String} {s s' : AuditConsumer P M}

/-- A message is in the store if it can be decoded. -/
def Saved (decode : M → Option AuditEvent) (table : Table) (m : M) : Prop :=
  ∀ event, decode m = some event → table.Stores event

/-- What is promised of the consumer: every decodable message below a committed offset is in the
store, once. -/
def AuditConsumer.NoLoss (decode : M → Option AuditEvent) (s : AuditConsumer P M) : Prop :=
  ∀ p o m, o < s.topic.committed p → (s.topic.log p)[o]? = some m → Saved decode s.table m

/-- Offsets are committed by a step. -/
def ConsumerStep.Commits : ConsumerStep P M → Prop
  | poll commit _ | close commit => commit = true
  | _ => False

/-- Whatever has failed since the start is in the store after all. -/
def AuditConsumer.MadeGood (decode : M → Option AuditEvent) (s : AuditConsumer P M) : Prop :=
  ∀ m ∈ s.topic.failed, Saved decode s.table m

/-- Nothing is lost exactly when every committed message is saved. -/
theorem noLoss_iff : s.NoLoss decode ↔ ∀ m, s.topic.Committed m → Saved decode s.table m := by
  constructor
  · rintro h m ⟨p, hm⟩
    obtain ⟨o, ho, he⟩ := List.mem_take_iff_getElem.mp hm
    exact h p o m (Nat.lt_of_lt_of_le ho (Nat.min_le_left _ _))
      (List.getElem?_eq_some_iff.mpr ⟨_, he⟩)
  · intro h p o m ho hm
    refine h m ⟨p, ?_⟩
    rw [List.mem_take_iff_getElem]
    obtain ⟨hl, he⟩ := List.getElem?_eq_some_iff.mp hm
    exact ⟨o, Nat.lt_min.mpr ⟨ho, hl⟩, he⟩

/-- A message is tried: what is stored stays, and without an exception it is stored. -/
theorem tryPersist_spec (decode : M → Option AuditEvent)
    (dumps : List (String × Value) → Option String) {table : Table} (h : table.Keyed)
    (attempt : Attempt) (m : M) :
    (tryPersist decode dumps attempt m table).1.Keyed ∧
      (∀ x, Saved decode table x → Saved decode (tryPersist decode dumps attempt m table).1 x) ∧
      ((tryPersist decode dumps attempt m table).2 = true →
        Saved decode (tryPersist decode dumps attempt m table).1 m) := by
  rw [tryPersist]
  cases hp : (decode m).bind fun event ↦ persist dumps event table with
  | none => exact ⟨h, fun _ hx ↦ hx, nofun⟩
  | some table' =>
    obtain ⟨event, hd, hw⟩ := Option.bind_eq_some_iff.mp hp
    have hk (x : M) (hx : Saved decode table x) : Saved decode table' x :=
      fun event' he ↦ (h.persist hw).2.2 event' (hx event' he)
    cases attempt with
    | answered =>
      refine ⟨(h.persist hw).1, hk, fun _ event' he ↦ ?_⟩
      cases hd.symm.trans he
      exact (h.persist hw).2.1
    | failed written =>
      cases written with
      | true => exact ⟨(h.persist hw).1, hk, nofun⟩
      | false => exact ⟨h, fun _ hx ↦ hx, nofun⟩

/-- What every step preserves. -/
structure Sound (s : AuditConsumer P M) : Prop where
  keyed : s.table.Keyed
  delivered : s.topic.Delivered

variable [DecidableEq P]

/-- Every step of the consumer keeps it sound. -/
theorem Sound.step (h : Sound s) {a : ConsumerStep P M} (hs : s.step decode dumps a = some s') :
    Sound s' := by
  cases a with
  | produce p m =>
    cases hs
    exact ⟨h.keyed, h.delivered.produce p m⟩
  | start =>
    rw [AuditConsumer.step, Option.ite_none_left_eq_some] at hs
    cases hs.2
    exact ⟨h.keyed, h.delivered.start⟩
  | poll commit records =>
    rw [AuditConsumer.step, Option.ite_none_right_eq_some] at hs
    cases hs.2
    cases commit with
    | true => exact ⟨h.keyed, h.delivered.commit.poll records⟩
    | false => exact ⟨h.keyed, h.delivered.poll records⟩
  | handle attempt =>
    rw [AuditConsumer.step] at hs
    split at hs
    · next m rest hr hb =>
      cases hs
      exact ⟨(tryPersist_spec decode dumps h.keyed attempt m).1, h.delivered.finish hb _⟩
    · cases hs
  | close commit =>
    rw [AuditConsumer.step, Option.ite_none_right_eq_some] at hs
    cases hs.2
    cases commit with
    | true => exact ⟨h.keyed, h.delivered.commit.stop⟩
    | false => exact ⟨h.keyed, h.delivered.stop⟩
  | crash =>
    rw [AuditConsumer.step, Option.ite_none_right_eq_some] at hs
    cases hs.2
    exact ⟨h.keyed, h.delivered.stop⟩

/-- Nothing is lost by a step that makes good what has failed if it commits. -/
theorem covered_step (hs : Sound s) (h : s.topic.Covered (Saved decode s.table))
    {a : ConsumerStep P M} (ha : s.step decode dumps a = some s')
    (hc : a.Commits → s.MadeGood decode) : s'.topic.Covered (Saved decode s'.table) := by
  cases a with
  | produce p m =>
    cases ha
    exact h.produce hs.delivered p m
  | start =>
    rw [AuditConsumer.step, Option.ite_none_left_eq_some] at ha
    cases ha.2
    exact h.start
  | poll commit records =>
    rw [AuditConsumer.step, Option.ite_none_right_eq_some] at ha
    obtain ⟨⟨hr, hb⟩, ⟨⟩⟩ := ha
    cases commit with
    | true => exact (h.commit hr hb (hc rfl)).poll records
    | false => exact h.poll records
  | handle attempt =>
    rw [AuditConsumer.step] at ha
    split at ha
    · next m rest hr hb =>
      cases ha
      obtain ⟨-, hmono, hok⟩ := tryPersist_spec decode dumps hs.keyed attempt m
      exact (h.mono hmono).finish hb hok
    · cases ha
  | close commit =>
    rw [AuditConsumer.step, Option.ite_none_right_eq_some] at ha
    obtain ⟨⟨hr, hb⟩, ⟨⟩⟩ := ha
    cases commit with
    | true => exact (h.commit hr hb (hc rfl)).stop
    | false => exact h.stop
  | crash =>
    rw [AuditConsumer.step, Option.ite_none_right_eq_some] at ha
    cases ha.2
    exact h.stop

/-- After a commit without a loss, whatever has failed is in the store. -/
theorem madeGood_of_commits (hs : Sound s) {a : ConsumerStep P M} (hc : a.Commits)
    (ha : s.step decode dumps a = some s') (h : s'.NoLoss decode) : s.MadeGood decode := by
  rw [noLoss_iff] at h
  intro m hm
  have hread := hs.delivered.failed m hm
  cases a with
  | poll commit records =>
    rw [AuditConsumer.step, Option.ite_none_right_eq_some] at ha
    obtain ⟨-, ⟨⟩⟩ := ha
    cases hc
    exact h m (Subscription.committed_poll.mpr hread)
  | close commit =>
    rw [AuditConsumer.step, Option.ite_none_right_eq_some] at ha
    obtain ⟨-, ⟨⟩⟩ := ha
    cases hc
    exact h m hread
  | _ => exact hc.elim

/-! ### Runs -/

variable {steps before : List (ConsumerStep P M)} {a : ConsumerStep P M}

/-- A run with one more step. -/
theorem run_concat : AuditConsumer.run decode dumps (steps ++ [a]) =
    (AuditConsumer.run decode dumps steps).bind fun s ↦ s.step decode dumps a := by
  rw [AuditConsumer.run, List.foldlM_append]
  apply Option.bind_congr
  intro s _
  rw [List.foldlM_cons]
  cases s.step decode dumps a <;> rfl

/-- The beginning of a run is a run. -/
theorem exists_run_of_prefix (h : AuditConsumer.run decode dumps steps = some s)
    (hp : before <+: steps) : ∃ s₁, AuditConsumer.run decode dumps before = some s₁ := by
  obtain ⟨after, rfl⟩ := hp
  rw [AuditConsumer.run, List.foldlM_append] at h
  obtain ⟨s₁, hs, -⟩ := Option.bind_eq_some_iff.mp h
  exact ⟨s₁, hs⟩

/-- A consumer is sound after any run. -/
theorem sound_of_run (h : AuditConsumer.run decode dumps steps = some s) : Sound s := by
  induction steps using List.reverseRecOn generalizing s with
  | nil =>
    cases h
    exact ⟨List.nodup_nil, Subscription.delivered_empty⟩
  | append_singleton steps a ih =>
    rw [run_concat] at h
    obtain ⟨s₁, hs, ha⟩ := Option.bind_eq_some_iff.mp h
    exact (ih hs).step ha

/-- Offsets are committed only when what has failed since the start is in the store after all. -/
def CommitsMadeGood (decode : M → Option AuditEvent)
    (dumps : List (String × Value) → Option String) (steps : List (ConsumerStep P M)) : Prop :=
  ∀ before a, before ++ [a] <+: steps → a.Commits →
    ∀ s, AuditConsumer.run decode dumps before = some s → s.MadeGood decode

/-- Where every commit is made good, what is committed is saved. -/
theorem covered_of_run (h : AuditConsumer.run decode dumps steps = some s)
    (hc : CommitsMadeGood decode dumps steps) : s.topic.Covered (Saved decode s.table) := by
  induction steps using List.reverseRecOn generalizing s with
  | nil =>
    cases h
    exact Subscription.covered_empty
  | append_singleton steps a ih =>
    rw [run_concat] at h
    obtain ⟨s₁, hs, ha⟩ := Option.bind_eq_some_iff.mp h
    have hcov := ih hs fun before a' hp ↦ hc before a' (hp.trans (List.prefix_append _ _))
    exact covered_step (sound_of_run hs) hcov ha fun hca ↦ hc steps a (List.prefix_refl _) hca s₁ hs

/-- At every point of a run all decodable messages below the committed offsets are in the store
exactly when offsets are committed only after what has failed is made good. -/
theorem noLoss_iff_commitsMadeGood (h : AuditConsumer.run decode dumps steps = some s) :
    (∀ before, before <+: steps → ∀ s₁, AuditConsumer.run decode dumps before = some s₁ →
      s₁.NoLoss decode) ↔ CommitsMadeGood decode dumps steps := by
  constructor
  · intro hn before a hp hca s₁ hs
    obtain ⟨s₂, hs₂⟩ := exists_run_of_prefix h hp
    have ha := hs₂
    rw [run_concat, hs, Option.bind_some] at ha
    exact madeGood_of_commits (sound_of_run hs) hca ha (hn _ hp s₂ hs₂)
  · intro hc before hp s₁ hs
    have hcov := covered_of_run hs fun b a hb ↦ hc b a (hb.trans hp)
    exact noLoss_iff.mpr hcov.committed

end

/-! ### A lost connection -/

/-- One event is produced and read, and its insertion comes to an end in some way before offsets
are committed. -/
def oneMessage (attempt : Attempt) : List (ConsumerStep Unit AuditEvent) :=
  [.produce () (getObjectEvent "1"), .start, .poll true [((), 500)], .handle attempt, .poll true []]

/-- One message that is answered. -/
theorem oneMessage_noLoss_iff : ∃ s,
    AuditConsumer.run some (fun _ ↦ none) (oneMessage .answered) = some s ∧
      ((∀ before, before <+: oneMessage .answered → ∀ s₁,
        AuditConsumer.run some (fun _ ↦ none) before = some s₁ → s₁.NoLoss some) ↔
          CommitsMadeGood some (fun _ ↦ none) (oneMessage .answered)) :=
  ⟨_, rfl, noLoss_iff_commitsMadeGood rfl⟩

/-- The connection to the database fails, and the event is given up. -/
theorem oneMessage_lost : ∃ s,
    AuditConsumer.run some (fun _ ↦ none) (oneMessage (.failed false)) = some s ∧
      s.topic.committed () = 1 ∧ (s.topic.log ())[0]? = some (getObjectEvent "1") ∧
        s.table = [] ∧ ¬ s.NoLoss some := by
  refine ⟨_, rfl, rfl, rfl, rfl, fun h ↦ ?_⟩
  have hs := h () 0 (getObjectEvent "1") Nat.one_pos rfl _ rfl
  cases hs

end NhiSentinel.Audit
