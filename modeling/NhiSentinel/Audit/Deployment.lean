import NhiSentinel.Audit.Verification

/-!
# Deployments

Agents that are started, publish and are started again, each with a producer of its own or with
one that others use too, and one store that all their events reach unchanged. When the
verification of the store raises no false alarm.
-/

namespace NhiSentinel.Audit
open NhiSentinel.Base

/-- A started agent: its identity and the producer that it holds. -/
structure Instance where
  agentId : String
  producer : Nat

/-- The producers and the agents of all processes so far, and the persisted events in the order
in which they were published. -/
structure Deployment where
  producers : List AuditProducer
  instances : List Instance
  store : List AuditEvent

namespace Deployment

/-- Nothing has been started. -/
def initial : Deployment := ⟨[], [], []⟩

/-- What happens in a deployment. A stopped agent is one that publishes no more. -/
inductive Action where
  /-- A producer is made. -/
  | produce
  /-- `BaseAgent.__init__`, `agents/base/agent.py:53`, with a producer that is passed or without. -/
  | start (agentId : String) (producer : Option Nat)
  /-- An agent publishes an event that it has built, and the event is persisted. -/
  | publish (i : Nat) (event : AuditEvent)

/-- The events of an agent in the order in which they were published. -/
def rows (d : Deployment) (agentId : String) : List AuditEvent :=
  d.store.filter (·.agentId = agentId)

section
variable (sha256 : String → String)

/-- The deployment after an action, if the action can happen: an agent's events carry its identity,
UTC time and an identifier of their own. -/
def step (d : Deployment) : Action → Option Deployment
  | .produce => some { d with producers := d.producers ++ [.new true] }
  | .start agentId none => some {
      d with
      producers := d.producers ++ [.new true]
      instances := d.instances ++ [⟨agentId, d.producers.length⟩] }
  | .start agentId (some producer) =>
    some { d with instances := d.instances ++ [⟨agentId, producer⟩] }
  | .publish i event => do
    let agent ← d.instances[i]?
    let producer ← d.producers[agent.producer]?
    if event.agentId = agent.agentId ∧ event.timestamp.utcoffset = some 0 ∧
        event.eventId ∉ d.store.map AuditEvent.eventId then
      let sent := producer.publish sha256 event .acknowledged
      some { d with
        producers := d.producers.set agent.producer sent.2
        store := d.store ++ [sent.1] }
    else none

/-- The deployment after a sequence of actions. -/
def run (d : Deployment) : List Action → Option Deployment
  | [] => some d
  | a :: actions => (d.step sha256 a).bind fun d' ↦ d'.run actions

/-- Whatever agent is verified and in whatever order the database breaks ties, the verdict is
that the chain is valid. -/
def NoFalseAlarm (dumps : List (String × Value) → String) (d : Deployment) : Prop :=
  ∀ agentId events, Selected d.store agentId events →
    ReportsValid (verifyEndpoint sha256 agentId (.ok (events.map (·.row dumps))))

end

/-- What verification takes for granted of an action: an event has no result, and it continues
the rows of its agent. The last event of the agent is then the last one of the producer at
hand, and it is older. -/
def Continues (d : Deployment) : Action → Prop
  | .publish i event => event.hasResult = false ∧
      ∀ agent producer, d.instances[i]? = some agent →
        d.producers[agent.producer]? = some producer → ∀ last ∈ (d.rows event.agentId).getLast?,
          last.eventHash = producer.lastHash ∧ last.timestamp.instant < event.timestamp.instant
  | _ => True

variable {sha256 : String → String} {dumps : List (String × Value) → String} {d d' : Deployment}
  {a : Action}

/-- What an action does: it makes a producer or starts an agent, or it publishes an event. -/
inductive Stepped (sha256 : String → String) (d : Deployment) : Action → Deployment → Prop where
  | prepared {a : Action} {d' : Deployment} (ha : d.Continues a) (hs : d'.store = d.store)
      (hp : ∀ p ∈ d'.producers, p ∈ d.producers ∨ p = .new true) : Stepped sha256 d a d'
  | published {i : Nat} {event : AuditEvent} {agent : Instance} {producer : AuditProducer}
      (ha : d.instances[i]? = some agent) (hp : d.producers[agent.producer]? = some producer)
      (hu : event.timestamp.utcoffset = some 0)
      (hf : event.eventId ∉ d.store.map AuditEvent.eventId) :
      Stepped sha256 d (.publish i event) { d with
        producers := d.producers.set agent.producer (producer.publish sha256 event .acknowledged).2
        store := d.store ++ [producer.complete sha256 event] }

private theorem step_stepped (h : d.step sha256 a = some d') : Stepped sha256 d a d' := by
  have hnew : ∀ p ∈ d.producers ++ [AuditProducer.new true], p ∈ d.producers ∨ p = .new true := by
    intro p hp
    rcases List.mem_append.mp hp with hp | hp
    · exact .inl hp
    · exact .inr (List.mem_singleton.mp hp)
  cases a with
  | produce =>
    cases h
    exact .prepared trivial rfl hnew
  | start agentId producer =>
    cases producer with
    | none =>
      cases h
      exact .prepared trivial rfl hnew
    | some producer =>
      cases h
      exact .prepared trivial rfl fun p hp ↦ .inl hp
  | publish i event =>
    simp only [step, Option.bind_eq_bind, Option.bind_eq_some_iff] at h
    obtain ⟨agent, ha, producer, hp, h⟩ := h
    split at h
    · next hc =>
      cases h
      rw [publish_fst]
      exact .published ha hp hc.2.1 hc.2.2
    · cases h

/-! ### Every run -/

/-- The hashes of a store: each is that of its event, and each link leads to the beginning or
into the store. -/
structure Sound (sha256 : String → String) (d : Deployment) : Prop where
  utc : ∀ e ∈ d.store, e.timestamp.utcoffset = some 0
  hash : ∀ e ∈ d.store, computeEventHash sha256 e = e.eventHash
  linked : ∀ e ∈ d.store, e.previousEventHash = genesisHash ∨
    ∃ g ∈ d.store, g.eventHash = e.previousEventHash
  heads : ∀ p ∈ d.producers, p.lastHash = genesisHash ∨ ∃ g ∈ d.store, g.eventHash = p.lastHash

/-- Every action keeps a deployment sound. -/
theorem Sound.step (hd : Sound sha256 d) (h : d.step sha256 a = some d') : Sound sha256 d' := by
  cases step_stepped h with
  | prepared _ hs hp =>
    refine ⟨hs ▸ hd.utc, hs ▸ hd.hash, hs ▸ hd.linked, fun p hm ↦ ?_⟩
    rw [hs]
    rcases hp p hm with hm | rfl
    · exact hd.heads p hm
    · exact .inl rfl
  | @published i event agent producer ha hp hu hf =>
    have hold {hash : String} (ho : hash = genesisHash ∨ ∃ g ∈ d.store, g.eventHash = hash) :
        hash = genesisHash ∨
          ∃ g ∈ d.store ++ [producer.complete sha256 event], g.eventHash = hash :=
      ho.imp_right fun ⟨g, hg, he⟩ ↦ ⟨g, List.mem_append_left _ hg, he⟩
    refine ⟨?_, ?_, ?_, ?_⟩
    · rw [List.forall_mem_append, List.forall_mem_singleton]
      exact ⟨hd.utc, hu⟩
    · rw [List.forall_mem_append, List.forall_mem_singleton]
      exact ⟨hd.hash, complete_eventHash event⟩
    · rw [List.forall_mem_append, List.forall_mem_singleton]
      exact ⟨fun e he ↦ hold (hd.linked e he),
        hold (hd.heads producer (List.mem_of_getElem? hp))⟩
    · intro p hm
      rcases List.mem_or_eq_of_mem_set hm with hm | rfl
      · exact hold (hd.heads p hm)
      · rw [publish_lastHash]
        exact .inr ⟨_, List.mem_append_right _ List.mem_cons_self, rfl⟩

/-- Two sequences of actions, one after the other. -/
theorem run_append (d : Deployment) (before after : List Action) :
    d.run sha256 (before ++ after) = (d.run sha256 before).bind fun d' ↦ d'.run sha256 after := by
  induction before generalizing d with
  | nil => rfl
  | cons a before ih =>
    rw [List.cons_append, run, run, Option.bind_assoc]
    exact congrArg _ (funext ih)

private theorem run_concat_eq_some {before : List Action} :
    initial.run sha256 (before ++ [a]) = some d' ↔
      ∃ d, initial.run sha256 before = some d ∧ d.step sha256 a = some d' := by
  rw [run_append, Option.bind_eq_some_iff]
  simp only [run, Option.bind_fun_some]

/-- The hashes of a store are sound in every run. -/
theorem sound_of_run {actions : List Action} (h : initial.run sha256 actions = some d) :
    Sound sha256 d := by
  induction actions using List.reverseRecOn generalizing d with
  | nil =>
    cases h
    exact ⟨fun _ he ↦ absurd he List.not_mem_nil, fun _ he ↦ absurd he List.not_mem_nil,
      fun _ he ↦ absurd he List.not_mem_nil, fun _ hp ↦ absurd hp List.not_mem_nil⟩
  | append_singleton before a ih =>
    obtain ⟨d₀, h₀, hs⟩ := run_concat_eq_some.mp h
    exact (ih h₀).step hs

/-! ### Runs that continue -/

/-- The rows of every agent are a chain in the order of their timestamps, without results. -/
structure Calm (sha256 : String → String) (d : Deployment) : Prop where
  ordered : ∀ agentId, (d.rows agentId).Pairwise fun a b ↦ a.timestamp.instant < b.timestamp.instant
  verifies : ∀ agentId, (chain sha256).Verifies (d.rows agentId)
  plain : ∀ agentId, (d.rows agentId).any AuditEvent.hasResult = false

private theorem mem_rows {agentId : String} {e : AuditEvent} :
    e ∈ d.rows agentId ↔ e ∈ d.store ∧ e.agentId = agentId := by
  rw [rows, List.mem_filter, decide_eq_true_eq]

/-- Rows whose timestamps are distinct are returned in one order only. -/
theorem Calm.noFalseAlarm (hc : Calm sha256 d) (hd : Sound sha256 d) :
    d.NoFalseAlarm sha256 dumps := by
  intro agentId events hs
  have ho := hc.ordered agentId
  have hinj : ∀ a b, a ∈ events → b ∈ d.rows agentId →
      a.timestamp.instant ≤ b.timestamp.instant → b.timestamp.instant ≤ a.timestamp.instant →
        a = b := by
    intro a b ha hb hab hba
    have hn : ((d.rows agentId).map fun e ↦ e.timestamp.instant).Nodup :=
      List.pairwise_map.mpr (ho.imp fun h ↦ ne_of_lt h)
    exact List.inj_on_of_nodup_map hn (hs.rows.subset ha) hb (Int.le_antisymm hab hba)
  have he : events = d.rows agentId :=
    List.Perm.eq_of_pairwise hinj hs.ordered (ho.imp fun h ↦ Int.le_of_lt h) hs.rows
  rw [he]
  refine (reportsValid_iff sha256 dumps agentId fun e hm ↦ hd.utc e (mem_rows.mp hm).1).mpr
    (.inr ⟨hc.plain agentId, ?_⟩)
  exact (verifyChain_iff sha256 _).mpr (hc.verifies agentId)

private theorem rows_of_store_eq (h : d'.store = d.store) (agentId : String) :
    d'.rows agentId = d.rows agentId := by
  rw [rows, rows, h]

private theorem filter_concat (store : List AuditEvent) (e : AuditEvent) (agentId : String) :
    (store ++ [e]).filter (·.agentId = agentId) =
      if e.agentId = agentId then store.filter (·.agentId = agentId) ++ [e]
      else store.filter (·.agentId = agentId) := by
  rw [List.filter_append, List.filter_singleton]
  by_cases ha : e.agentId = agentId <;> simp [ha]

private theorem lt_of_last {l : List AuditEvent} {n : Int}
    (ho : l.Pairwise fun a b ↦ a.timestamp.instant < b.timestamp.instant)
    (hl : ∀ e ∈ l.getLast?, e.timestamp.instant < n) : ∀ e ∈ l, e.timestamp.instant < n := by
  cases l using List.reverseRecOn with
  | nil => exact fun _ he ↦ absurd he List.not_mem_nil
  | append_singleton l last =>
    have hlast := hl last (by simp)
    intro e he
    rcases List.mem_append.mp he with he | he
    · have hlt := (List.pairwise_append.mp ho).2.2 e he last List.mem_cons_self
      omega
    · rw [List.mem_singleton.mp he]
      exact hlast

/-- An event that continues the rows of its agent keeps them a chain. -/
theorem Calm.step (hc : Calm sha256 d) (h : d.step sha256 a = some d') (ha : d.Continues a) :
    Calm sha256 d' := by
  cases step_stepped h with
  | prepared _ hs =>
    have hr := rows_of_store_eq hs
    exact ⟨fun agentId ↦ hr agentId ▸ hc.ordered agentId,
      fun agentId ↦ hr agentId ▸ hc.verifies agentId, fun agentId ↦ hr agentId ▸ hc.plain agentId⟩
  | @published i event agent producer hi hp hu hf =>
    obtain ⟨hplain, hl⟩ := ha
    have hlast := hl agent producer hi hp
    have hr := filter_concat d.store (producer.complete sha256 event)
    refine ⟨fun agentId ↦ ?_, fun agentId ↦ ?_, fun agentId ↦ ?_⟩
    · rw [rows, hr]
      split
      · next he =>
        subst he
        refine List.pairwise_append.mpr ⟨hc.ordered _, List.pairwise_singleton _ _, ?_⟩
        intro x hx y hy
        rw [List.mem_singleton.mp hy]
        exact lt_of_last (hc.ordered _) (fun e he ↦ (hlast e he).2) x hx
      · exact hc.ordered agentId
    · rw [rows, hr]
      split
      · next he =>
        subst he
        refine HashChain.verifies_concat.mpr ⟨hc.verifies _, complete_eventHash event, ?_⟩
        intro x hx
        exact (hlast x hx).1.symm
      · exact hc.verifies agentId
    · rw [rows, hr]
      split
      · rw [List.any_append, Bool.or_eq_false_iff, List.any_cons, List.any_nil, Bool.or_false]
        exact ⟨hc.plain agentId, hplain⟩
      · exact hc.plain agentId

private theorem divided {l : List AuditEvent} (n : Int)
    (ho : l.Pairwise fun a b ↦ a.timestamp.instant < b.timestamp.instant) :
    ∃ x y, l = x ++ y ∧ (∀ e ∈ x, e.timestamp.instant < n) ∧ ∀ e ∈ y, n ≤ e.timestamp.instant := by
  induction l with
  | nil =>
    exact ⟨[], [], rfl, fun _ he ↦ absurd he List.not_mem_nil,
      fun _ he ↦ absurd he List.not_mem_nil⟩
  | cons f l ih =>
    rw [List.pairwise_cons] at ho
    by_cases hf : f.timestamp.instant < n
    · obtain ⟨x, y, rfl, hx, hy⟩ := ih ho.2
      exact ⟨f :: x, y, rfl, List.forall_mem_cons.mpr ⟨hf, hx⟩, hy⟩
    · have hl : ∀ e ∈ l, n ≤ e.timestamp.instant := by
        intro e he
        have hlt := ho.1 e he
        omega
      exact ⟨[], f :: l, rfl, fun _ he ↦ absurd he List.not_mem_nil,
        List.forall_mem_cons.mpr ⟨by omega, hl⟩⟩

/-- The rows with a new event among them, at the place of its timestamp, may be returned. -/
theorem selected_insert (hc : Calm sha256 d) {event : AuditEvent} {x y : List AuditEvent}
    (hxy : d.rows event.agentId = x ++ y)
    (hx : ∀ e ∈ x, e.timestamp.instant < event.timestamp.instant)
    (hy : ∀ e ∈ y, event.timestamp.instant ≤ e.timestamp.instant) :
    Selected (d.store ++ [event]) event.agentId (x ++ event :: y) := by
  have ho := (hxy ▸ hc.ordered event.agentId).imp fun h ↦ Int.le_of_lt h
  constructor
  · rw [rows] at hxy
    rw [filter_concat, if_pos rfl, hxy, List.append_assoc]
    exact (List.perm_append_left_iff x).mpr (List.perm_append_singleton _ y).symm
  · rw [List.pairwise_append] at ho ⊢
    refine ⟨ho.1, List.pairwise_cons.mpr ⟨hy, ho.2.1⟩, ?_⟩
    intro e he f hf
    rcases List.mem_cons.mp hf with rfl | hf
    · exact Int.le_of_lt (hx e he)
    · exact ho.2.2 e he f hf

private theorem Sound.previousEventHash_ne (hi : Function.Injective sha256)
    (hg : ∀ text, sha256 text ≠ genesisHash) (hd : Sound sha256 d) {event f : AuditEvent}
    {producer : AuditProducer} (hn : event.eventId ∉ d.store.map AuditEvent.eventId)
    (hf : f ∈ d.store) : f.previousEventHash ≠ (producer.complete sha256 event).eventHash := by
  intro hl
  rcases hd.linked f hf with hgenesis | ⟨g, hm, he⟩
  · exact hg _ (hl.symm.trans hgenesis)
  · -- an event of the store with the hash of the new one would have its identifier
    have hag := agree_of_hash_eq hi ((hd.hash g hm).trans (he.trans hl))
    exact hn (List.mem_map.mpr ⟨g, hm, hag.eventId⟩)

/-- Where no alarm is raised after an action, the action continued the rows of its agent: one
with a result, another producer's or an older one is an alarm. -/
theorem Calm.continues (hi : Function.Injective sha256) (hg : ∀ text, sha256 text ≠ genesisHash)
    (hc : Calm sha256 d) (hd : Sound sha256 d) (h : d.step sha256 a = some d')
    (hn : d'.NoFalseAlarm sha256 dumps) : d.Continues a := by
  have hd' := hd.step h
  cases step_stepped h with
  | prepared ha => exact ha
  | @published i event agent producer ha hp hu hf =>
    obtain ⟨x, y, hxy, hx, hy⟩ := divided event.timestamp.instant (hc.ordered event.agentId)
    have hs : Selected (d.store ++ [producer.complete sha256 event]) event.agentId
        (x ++ producer.complete sha256 event :: y) := selected_insert hc hxy hx hy
    have hv := (reportsValid_iff sha256 dumps event.agentId fun e he ↦
      hd'.utc e (hs.mem he).1).mp (hn event.agentId _ hs)
    rcases hv with hv | ⟨hplain, hv⟩
    · simp at hv
    rw [verifyChain_iff] at hv
    have hlast : y = [] := by
      cases y with
      | nil => rfl
      | cons f y =>
        have hm : f ∈ d.store := (mem_rows.mp (hxy ▸ List.mem_append_right x List.mem_cons_self)).1
        have hpair := hv.segment (m := [producer.complete sha256 event, f]) ⟨x, y, by simp⟩
        exact absurd (List.isChain_pair.mp hpair.2) (hd.previousEventHash_ne hi hg hf hm)
    subst hlast
    rw [List.append_nil] at hxy
    refine ⟨?_, ?_⟩
    · rw [List.any_append, Bool.or_eq_false_iff, List.any_cons, Bool.or_eq_false_iff] at hplain
      exact hplain.2.1
    · intro agent' producer' ha' hp' last hm
      cases ha.symm.trans ha'
      cases hp.symm.trans hp'
      rw [hxy] at hm
      have hv' := HashChain.verifies_concat.mp hv
      exact ⟨(hv'.2.2 last hm).symm, hx last (List.mem_of_getLast? hm)⟩

private theorem calm_of_continues {actions : List Action} (h : initial.run sha256 actions = some d)
    (hc : ∀ before a d', before ++ [a] <+: actions → initial.run sha256 before = some d' →
      d'.Continues a) : Calm sha256 d := by
  induction actions using List.reverseRecOn generalizing d with
  | nil =>
    cases h
    exact ⟨fun _ ↦ .nil, fun _ ↦ ⟨fun _ he ↦ absurd he List.not_mem_nil, .nil⟩, fun _ ↦ rfl⟩
  | append_singleton before a ih =>
    obtain ⟨d₀, h₀, hs⟩ := run_concat_eq_some.mp h
    have hcalm := ih h₀ fun before' a' d' hp ↦ hc before' a' d' (hp.trans (List.prefix_append _ _))
    exact hcalm.step hs (hc before a d₀ (List.prefix_refl _) h₀)

private theorem continues_of_noFalseAlarm (hi : Function.Injective sha256)
    (hg : ∀ text, sha256 text ≠ genesisHash) {actions : List Action}
    (h : initial.run sha256 actions = some d)
    (hn : ∀ before d', before <+: actions → initial.run sha256 before = some d' →
      d'.NoFalseAlarm sha256 dumps) :
    ∀ before a d', before ++ [a] <+: actions → initial.run sha256 before = some d' →
      d'.Continues a := by
  induction actions using List.reverseRecOn generalizing d with
  | nil =>
    intro before a d' hp
    simp at hp
  | append_singleton actions a ih =>
    obtain ⟨d₀, h₀, hs⟩ := run_concat_eq_some.mp h
    have hc := ih h₀ fun before d' hp ↦ hn before d' (hp.trans (List.prefix_append _ _))
    intro before b d' hp hr
    rw [List.prefix_concat_iff] at hp
    rcases hp with he | hp
    · obtain ⟨rfl, hb⟩ := List.append_inj' he rfl
      cases hb
      cases h₀.symm.trans hr
      exact (calm_of_continues h₀ hc).continues hi hg (sound_of_run h₀) hs
        (hn _ d (List.prefix_refl _) h)
    · exact hc before b d' hp hr

/-- The verification of a store raises no false alarm along a run exactly when every event has no
result and continues the rows of its agent. -/
theorem noFalseAlarm_iff (hi : Function.Injective sha256)
    (hg : ∀ text, sha256 text ≠ genesisHash) {actions : List Action}
    (h : initial.run sha256 actions = some d) :
    (∀ before d', before <+: actions → initial.run sha256 before = some d' →
      d'.NoFalseAlarm sha256 dumps) ↔
    ∀ before a d', before ++ [a] <+: actions → initial.run sha256 before = some d' →
      d'.Continues a := by
  constructor
  · intro hn
    exact continues_of_noFalseAlarm hi hg h hn
  · intro hc before d' hb hr
    have hcalm := calm_of_continues hr fun before' a d'' hp ↦ hc before' a d'' (hp.trans hb)
    exact hcalm.noFalseAlarm (sound_of_run hr)

/-- Two agents with producers of their own publish in turn. -/
def twoAgents : List Action :=
  [.start "agent-data-001" none, .start "agent-infra-001" none, .publish 0 (getObjectEvent "1"),
    .publish 1 { getObjectEvent "2" with agentId := "agent-infra-001" },
    .publish 0 { getObjectEvent "3" with timestamp := .utc 1000000 }]

/-- Whether their events raise a false alarm. -/
theorem noFalseAlarm_iff_twoAgents : ∃ d, initial.run tagged twoAgents = some d ∧
    ((∀ before d', before <+: twoAgents → initial.run tagged before = some d' →
      d'.NoFalseAlarm tagged fun _ ↦ "") ↔
    ∀ before a d', before ++ [a] <+: twoAgents → initial.run tagged before = some d' →
      d'.Continues a) :=
  ⟨_, rfl, noFalseAlarm_iff tagged_injective tagged_ne_genesisHash rfl⟩

/-! ### A restart -/

/-- An agent is started and publishes an event. -/
def firstLife : List Action :=
  [.start "agent-data-001" none, .publish 0 (getObjectEvent "1")]

/-- It is started again, and publishes another one a second later. -/
def secondLife : List Action :=
  [.start "agent-data-001" none, .publish 1 { getObjectEvent "2" with timestamp := .utc 1000000 }]

/-- The deployment after the first event. -/
def afterFirst : Deployment where
  producers := [((AuditProducer.new true).publish tagged (getObjectEvent "1") .acknowledged).2]
  instances := [⟨"agent-data-001", 0⟩]
  store := [(AuditProducer.new true).complete tagged (getObjectEvent "1")]

/-- The deployment after the second event: both events point to the first hash of a chain. -/
def afterSecond : Deployment where
  producers := afterFirst.producers ++ [((AuditProducer.new true).publish tagged
    { getObjectEvent "2" with timestamp := .utc 1000000 } .acknowledged).2]
  instances := [⟨"agent-data-001", 0⟩, ⟨"agent-data-001", 1⟩]
  store := afterFirst.store ++ [(AuditProducer.new true).complete tagged
    { getObjectEvent "2" with timestamp := .utc 1000000 }]

/-- After a restart the untampered events of one agent are reported invalid. -/
theorem restart_raises_alarm :
    initial.run tagged (firstLife ++ secondLife) = some afterSecond ∧
      ¬ afterSecond.NoFalseAlarm tagged fun _ ↦ "" := by
  refine ⟨rfl, fun hn ↦ ?_⟩
  have ho : (DateTime.utc 0).instant ≤ (DateTime.utc 1000000).instant := by decide
  have hs : Selected afterSecond.store "agent-data-001" afterSecond.store :=
    ⟨.refl _, List.pairwise_pair.mpr ho⟩
  have hu : ∀ e ∈ afterSecond.store, e.timestamp.utcoffset = some 0 :=
    List.forall_mem_cons.mpr ⟨rfl, List.forall_mem_singleton.mpr rfl⟩
  have hv := (reportsValid_iff tagged _ _ hu).mp (hn "agent-data-001" _ hs)
  rcases hv with hv | ⟨-, hv⟩
  · cases hv
  · rw [verifyChain_iff] at hv
    exact tagged_ne_genesisHash _ (List.isChain_pair.mp hv.2).symm

end Deployment
end NhiSentinel.Audit
