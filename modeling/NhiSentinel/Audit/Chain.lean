import NhiSentinel.Audit.Producer

/-!
# What a chain proves

How far the check of a chain binds its events, for a hash that is injective and does not hit
the hash that chains begin with: which changes, omissions and rearrangements it sees, and
when the part of a chain that reached Kafka passes it.
-/

namespace NhiSentinel.Audit
open NhiSentinel.Base

variable {sha256 : String → String}

/-- A hash function for the examples: injective, and never the first hash of a chain. -/
def tagged (text : String) : String := "sha256:" ++ text

/-- Tagging a text is injective. -/
theorem tagged_injective : Function.Injective tagged := by
  intro a b h
  rw [tagged, tagged, ← String.toList_inj, String.toList_append, String.toList_append] at h
  exact String.toList_inj.mp (List.append_cancel_left h)

/-- A tagged text is not the hash that the chain begins with. -/
theorem tagged_ne_genesisHash (text : String) : tagged text ≠ genesisHash := by
  intro h
  have hg : genesisHash.toList = List.replicate 64 '0' := String.toList_ofList
  have hs : 's' ∈ (tagged text).toList := by
    rw [tagged, String.toList_append]
    exact List.mem_append_left _ (by decide)
  rw [h, hg] at hs
  exact absurd (List.mem_replicate.mp hs).2 (by decide)

/-- An event for the examples. -/
def getObjectEvent (eventId : String) : AuditEvent where
  eventId := eventId
  timestamp := .utc 0
  agentId := "agent-data-001"
  agentType := "DataAgent"
  taskId := "task-001"
  action := "s3_get_object"
  resourceArn := "arn:aws:s3:::bucket/key"
  decision := "ALLOW"

/-! ### Binding -/

private theorem agree_of_last_eq (hi : Function.Injective sha256) {a b : List AuditEvent}
    (ha : (chain sha256).Verifies a) (hb : (chain sha256).Verifies b) (hn : a.length = b.length)
    (hd : a.getLast?.map AuditEvent.eventHash = b.getLast?.map AuditEvent.eventHash) (n : Nat)
    (hna : n < a.length) (hnb : n < b.length) : AgreeOnHashed a[n] b[n] := by
  have hs := HashChain.Verifies.stored_eq (prev_eq_of_hash_eq hi) ha hb hn hd
  have he : a[n].eventHash = b[n].eventHash := by
    have hm := congrArg (·[n]?) hs
    simpa [chain, hna, hnb] using hm
  apply agree_of_hash_eq hi
  calc computeEventHash sha256 a[n] = a[n].eventHash := ha.1 _ (List.getElem_mem hna)
    _ = b[n].eventHash := he
    _ = computeEventHash sha256 b[n] := (hb.1 _ (List.getElem_mem hnb)).symm

/-- The last hash of a chain that passes the check binds the hashed fields of all its events;
a difference shows in every hash from there on. -/
theorem verifyChain_binds (hi : Function.Injective sha256) {a b : List AuditEvent}
    (ha : verifyChain sha256 a = true) (hb : verifyChain sha256 b = true) :
    (a.length = b.length →
      a.getLast?.map AuditEvent.eventHash = b.getLast?.map AuditEvent.eventHash →
      List.Forall₂ AgreeOnHashed a b) ∧
    ∀ (n m : Nat) (hnm : n ≤ m) (hma : m < a.length) (hmb : m < b.length),
      ¬ AgreeOnHashed (a.get ⟨n, hnm.trans_lt hma⟩) (b.get ⟨n, hnm.trans_lt hmb⟩) →
        a[m].eventHash ≠ b[m].eventHash := by
  rw [verifyChain_iff] at ha hb
  constructor
  · intro hn hd
    exact List.forall₂_iff_get.mpr ⟨hn, fun n hna hnb ↦ agree_of_last_eq hi ha hb hn hd n hna hnb⟩
  · intro n m hnm hma hmb hne he
    -- the beginnings that end with the two events
    have hta := ha.segment (a.take_prefix (m + 1)).isInfix
    have htb := hb.segment (b.take_prefix (m + 1)).isInfix
    have hag := agree_of_last_eq hi hta htb (by simp; omega)
      (by simp [List.getLast?_take, hma, hmb, he]) n (by simp; omega) (by simp; omega)
    rw [List.getElem_take, List.getElem_take] at hag
    exact hne hag

/-- Two reads of a producer, of which the first was decided in some way. -/
def decidedReads (decision : String) (reason : Option String) : List AuditEvent :=
  (AuditProducer.new true).published tagged
    [({ getObjectEvent "1" with decision := decision, decisionReason := reason }, .acknowledged),
      (getObjectEvent "2", .failed)]

/-- Chains whose events differ in a reason, and chains that differ in a decision. -/
theorem verifyChain_binds_reads :
    List.Forall₂ AgreeOnHashed (decidedReads "ALLOW" none) (decidedReads "ALLOW" (some "late")) ∧
      (decidedReads "ALLOW" none).getLast?.map AuditEvent.eventHash ≠
        (decidedReads "DENY" none).getLast?.map AuditEvent.eventHash := by
  have hv (decision : String) (reason : Option String) :
      verifyChain tagged (decidedReads decision reason) = true := verifyChain_published _ _
  refine ⟨(verifyChain_binds tagged_injective (hv _ _) (hv _ _)).1 rfl rfl, fun he ↦ ?_⟩
  have hd := (verifyChain_binds tagged_injective (hv "ALLOW" none) (hv "DENY" none)).2 0 1
    (by decide) (Nat.lt_succ_self 1) (Nat.lt_succ_self 1)
  refine hd (fun ha ↦ ?_) (Option.some.inj he)
  exact absurd ha.decision (by decide)

/-! ### Rearrangement -/

/-- A list of events of a producer's chain passes the check exactly when it is a segment of the
chain. -/
theorem verifyChain_iff_segment (hi : Function.Injective sha256)
    (hg : ∀ text, sha256 text ≠ genesisHash) (connected : Bool)
    (sends : List (AuditEvent × SendOutcome)) {events : List AuditEvent}
    (hm : ∀ e ∈ events, e ∈ (AuditProducer.new connected).published sha256 sends) :
    verifyChain sha256 events = true ↔
      events <:+: (AuditProducer.new connected).published sha256 sends := by
  rw [verifyChain_iff]
  exact (published_grown sha256 (.new connected) sends).verifies_iff_segment (prev_eq_of_hash_eq hi)
    (fun e ↦ hg e.canonical) hm

/-- The end of a chain of two events. -/
theorem verifyChain_iff_segment_tail :
    verifyChain tagged (((AuditProducer.new true).published tagged
        [(getObjectEvent "1", .acknowledged), (getObjectEvent "2", .acknowledged)]).drop 1) = true ↔
      ((AuditProducer.new true).published tagged
        [(getObjectEvent "1", .acknowledged), (getObjectEvent "2", .acknowledged)]).drop 1 <:+:
        (AuditProducer.new true).published tagged
          [(getObjectEvent "1", .acknowledged), (getObjectEvent "2", .acknowledged)] :=
  verifyChain_iff_segment tagged_injective tagged_ne_genesisHash true _
    fun _ he ↦ List.mem_of_mem_drop he

/-! ### Tampering -/

private theorem published_set_verifies (hi : Function.Injective sha256) (producer : AuditProducer)
    (sends : List (AuditEvent × SendOutcome)) {n : Nat}
    (hn : n < (producer.published sha256 sends).length) {e : AuditEvent}
    (hh : e.eventHash = (producer.published sha256 sends)[n].eventHash) :
    (chain sha256).Verifies ((producer.published sha256 sends).set n e) ↔
      AgreeOnHashed e (producer.published sha256 sends)[n] := by
  have hv := (published_grown sha256 producer sends).verifies
  rw [hv.set_iff (prev_eq_of_hash_eq hi) hn hh]
  constructor
  · exact agree_of_hash_eq hi
  · intro h
    exact congrArg sha256 ((canonical_eq_iff _ _).mpr h)

/-- An event of a chain exchanged for another under its hash fails the check exactly when a
hashed field differs. -/
theorem verifyChain_set_eq_false_iff (hi : Function.Injective sha256) (producer : AuditProducer)
    (sends : List (AuditEvent × SendOutcome)) {n : Nat}
    (hn : n < (producer.published sha256 sends).length) {event : AuditEvent}
    (hh : event.eventHash = (producer.published sha256 sends)[n].eventHash) :
    verifyChain sha256 ((producer.published sha256 sends).set n event) = false ↔
      ¬ AgreeOnHashed event (producer.published sha256 sends)[n] := by
  rw [← Bool.not_eq_true, verifyChain_iff, published_set_verifies hi producer sends hn hh]

/-- Three reads of a producer. -/
def threeReads : List AuditEvent :=
  (AuditProducer.new true).published tagged [(getObjectEvent "1", .acknowledged),
    (getObjectEvent "2", .failed), (getObjectEvent "3", .acknowledged)]

/-- The second of them. -/
def secondRead : AuditEvent :=
  ((AuditProducer.new true).publish tagged (getObjectEvent "1") .acknowledged).2.complete tagged
    (getObjectEvent "2")

/-- A decision in the middle of a chain that is replaced. -/
theorem verifyChain_set_eq_false_iff_second :
    verifyChain tagged (threeReads.set 1 { secondRead with decision := "DENY" }) = false ↔
      ¬ AgreeOnHashed { secondRead with decision := "DENY" } secondRead :=
  verifyChain_set_eq_false_iff tagged_injective (.new true) _ (n := 1)
    (show 1 < threeReads.length from Nat.lt_succ_of_lt Nat.one_lt_two) rfl

/-- A published event whose reason was exchanged afterwards. -/
def forgedReason : AuditEvent :=
  { (AuditProducer.new true).complete tagged (getObjectEvent "1") with
    decisionReason := some "forged" }

/-- The reason of a decision is exchanged, and the check passes. -/
theorem forgedReason_verifies :
    forgedReason.decisionReason ≠
        ((AuditProducer.new true).complete tagged (getObjectEvent "1")).decisionReason ∧
      forgedReason.eventHash =
        ((AuditProducer.new true).complete tagged (getObjectEvent "1")).eventHash ∧
      verifyChain tagged (((AuditProducer.new true).published tagged
        [(getObjectEvent "1", .acknowledged)]).set 0 forgedReason) = true := by
  refine ⟨nofun, rfl, ?_⟩
  have ha : AgreeOnHashed forgedReason
      ((AuditProducer.new true).complete tagged (getObjectEvent "1")) :=
    ⟨rfl, rfl, rfl, rfl, rfl, rfl, rfl, rfl, rfl⟩
  rw [verifyChain_iff]
  exact (published_set_verifies tagged_injective (.new true) [(getObjectEvent "1", .acknowledged)]
    Nat.one_pos (e := forgedReason) rfl).mpr ha

/-! ### Gaps -/

/-- No send fails between two that are acknowledged. -/
def Unbroken (outcomes : List SendOutcome) : Prop :=
  ∃ before during after, outcomes = before ++ during ++ after ∧
    (∀ o ∈ before ++ after, o = .failed) ∧ ∀ o ∈ during, o = .acknowledged

/-- The acknowledged events of a connected producer pass the check exactly when no send fails
between two that are acknowledged. -/
theorem verifyChain_acknowledged_iff (hi : Function.Injective sha256)
    (hg : ∀ text, sha256 text ≠ genesisHash) (sends : List (AuditEvent × SendOutcome)) :
    verifyChain sha256 ((AuditProducer.new true).acknowledged sha256 sends) = true ↔
      Unbroken (sends.map Prod.snd) := by
  have hc : ((chain sha256).comap Prod.fst).Grown genesisHash
      ((AuditProducer.new true).publishAll sha256 sends).1 :=
    (HashChain.grown_comap ..).mpr (published_grown sha256 (.new true) sends)
  have hp (a b : AuditEvent × SendOutcome) (h : ((chain sha256).comap Prod.fst).digest a =
      ((chain sha256).comap Prod.fst).digest b) :
      ((chain sha256).comap Prod.fst).prev a = ((chain sha256).comap Prod.fst).prev b :=
    prev_eq_of_hash_eq hi a.1 b.1 h
  have hr (e : AuditEvent × SendOutcome) : ((chain sha256).comap Prod.fst).digest e ≠ genesisHash :=
    hg e.1.canonical
  rw [verifyChain_iff, AuditProducer.acknowledged, ← HashChain.verifies_comap,
    hc.filter_verifies_iff hp hr, ← publishAll_outcomes sha256 (.new true)]
  have ho (o : SendOutcome) : decide (o = .acknowledged) = false ↔ o = .failed := by
    cases o <;> simp
  constructor
  · rintro ⟨a, b, d, he, hn, hb⟩
    refine ⟨a.map Prod.snd, b.map Prod.snd, d.map Prod.snd, ?_, ?_, ?_⟩
    · rw [he, List.map_append, List.map_append]
    · rw [← List.map_append, List.forall_mem_map]
      exact fun e hm ↦ (ho e.2).mp (hn e hm)
    · rw [List.forall_mem_map]
      exact fun e hm ↦ of_decide_eq_true (hb e hm)
  · rintro ⟨before, during, after, he, hn, hd⟩
    obtain ⟨ab, d, hs, hab, rfl⟩ := List.map_eq_append_iff.mp he
    obtain ⟨a, b, rfl, rfl, rfl⟩ := List.map_eq_append_iff.mp hab
    rw [← List.map_append, List.forall_mem_map] at hn
    rw [List.forall_mem_map] at hd
    exact ⟨a, b, d, hs, fun e hm ↦ (ho e.2).mpr (hn e hm), fun e hm ↦ decide_eq_true (hd e hm)⟩

/-- An event that fails before one that is acknowledged. -/
theorem verifyChain_acknowledged_iff_outage :
    verifyChain tagged ((AuditProducer.new true).acknowledged tagged
        [(getObjectEvent "1", .failed), (getObjectEvent "2", .acknowledged)]) = true ↔
      Unbroken [.failed, .acknowledged] :=
  verifyChain_acknowledged_iff tagged_injective tagged_ne_genesisHash
    [(getObjectEvent "1", .failed), (getObjectEvent "2", .acknowledged)]

/-- One send of three fails, and the two events on the topic do not pass the check. -/
theorem outage_breaks_chain :
    verifyChain tagged ((AuditProducer.new true).acknowledged tagged
      [(getObjectEvent "1", .acknowledged), (getObjectEvent "2", .failed),
        (getObjectEvent "3", .acknowledged)]) = false := by
  rw [← Bool.not_eq_true, verifyChain_iff]
  intro h
  -- the third event points to the second, the check compares it with the first
  have hl := List.isChain_pair.mp h.2
  have hid := (agree_of_hash_eq tagged_injective hl).eventId
  exact absurd hid (by decide)

end NhiSentinel.Audit
