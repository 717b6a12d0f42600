import NhiSentinel.Audit.Api
import NhiSentinel.Audit.Chain

/-!
# What verification reports

The verdict of `/chain/verify` on stores that have lost events, and on untampered stores in
which agents and producers come and go.
-/

namespace NhiSentinel.Audit
open NhiSentinel.Base

variable {sha256 : String → String} {dumps : List (String × Value) → String}

/-! ### Lost events -/

/-- A store that has lost some events of an agent's chain. -/
structure Trimmed (chain store : List AuditEvent) (agentId : String) : Prop where
  own : ∀ e ∈ chain, e.agentId = agentId
  utc : ∀ e ∈ chain, e.timestamp.utcoffset = some 0
  left : (store.filter (·.agentId = agentId)).Subperm chain
  lost : (store.filter (·.agentId = agentId)).length < chain.length

/-- The events that are selected are those of the agent. -/
theorem Selected.mem {store : List AuditEvent} {agentId : String} {events : List AuditEvent}
    (h : Selected store agentId events) {e : AuditEvent} (he : e ∈ events) :
    e ∈ store ∧ e.agentId = agentId := by
  have hm := List.mem_filter.mp (h.rows.subset he)
  exact ⟨hm.1, of_decide_eq_true hm.2⟩

/-- A removal goes unreported exactly when no row is left, or when the rows have no results and
are returned as a segment of the chain. -/
theorem removal_detected_iff (hi : Function.Injective sha256)
    (hg : ∀ text, sha256 text ≠ genesisHash) (connected : Bool)
    (sends : List (AuditEvent × SendOutcome)) {store events : List AuditEvent} {agentId : String}
    (ht : Trimmed ((AuditProducer.new connected).published sha256 sends) store agentId)
    (hs : Selected store agentId events) :
    ¬ ReportsValid (verifyEndpoint sha256 agentId (.ok (events.map (·.row dumps)))) ↔
      events ≠ [] ∧ (events.any AuditEvent.hasResult = true ∨
        ¬ events <:+: (AuditProducer.new connected).published sha256 sends) := by
  have hm : ∀ e ∈ events, e ∈ (AuditProducer.new connected).published sha256 sends :=
    fun e he ↦ ht.left.subset (hs.rows.subset he)
  have hv := (published_grown sha256 (.new connected) sends).verifies_iff_segment
    (prev_eq_of_hash_eq hi) (fun e ↦ hg e.canonical) hm
  rw [reportsValid_iff sha256 dumps agentId fun e he ↦ ht.utc e (hm e he), verifyChain_iff, hv,
    not_or, not_and_or, Bool.not_eq_false]

/-- Two events of an agent. -/
def twoEvents : List AuditEvent :=
  (AuditProducer.new true).published tagged
    [(getObjectEvent "1", .acknowledged), (getObjectEvent "2", .acknowledged)]

private theorem mem_twoEvents {e : AuditEvent} (h : e ∈ twoEvents) :
    e.agentId = "agent-data-001" ∧ e.timestamp = .utc 0 ∧ e.hasResult = false := by
  obtain ⟨send, hs, _, rfl⟩ := exists_of_mem_published h
  simp only [List.mem_cons, List.not_mem_nil, or_false] at hs
  rcases hs with rfl | rfl <;> exact ⟨rfl, rfl, rfl⟩

private theorem filter_drop_twoEvents (n : Nat) :
    ((twoEvents.drop n).filter (·.agentId = "agent-data-001")) = twoEvents.drop n :=
  List.filter_eq_self.mpr fun _ he ↦ decide_eq_true (mem_twoEvents (List.mem_of_mem_drop he)).1

private theorem trimmed_drop_twoEvents {n : Nat} (hn : 0 < n) :
    Trimmed twoEvents (twoEvents.drop n) "agent-data-001" where
  own _ he := (mem_twoEvents he).1
  utc e he := by
    rw [(mem_twoEvents he).2.1]
    rfl
  left := by
    rw [filter_drop_twoEvents]
    exact (twoEvents.drop_sublist n).subperm
  lost := by
    rw [filter_drop_twoEvents, List.length_drop]
    have hl : twoEvents.length = 2 := rfl
    omega

private theorem selected_drop_twoEvents (n : Nat) :
    Selected (twoEvents.drop n) "agent-data-001" (twoEvents.drop n) where
  rows := by rw [filter_drop_twoEvents]
  ordered := by
    refine List.Pairwise.imp_of_mem (R := fun _ _ ↦ True) (fun ha hb _ ↦ ?_)
      (List.pairwise_of_forall fun _ _ ↦ trivial)
    rw [(mem_twoEvents (List.mem_of_mem_drop ha)).2.1,
      (mem_twoEvents (List.mem_of_mem_drop hb)).2.1]

/-- The first of two events is removed. -/
theorem removal_detected_iff_first :
    ¬ ReportsValid (verifyEndpoint tagged "agent-data-001"
        (.ok ((twoEvents.drop 1).map (·.row fun _ ↦ "")))) ↔
      twoEvents.drop 1 ≠ [] ∧ ((twoEvents.drop 1).any AuditEvent.hasResult = true ∨
        ¬ twoEvents.drop 1 <:+: twoEvents) :=
  removal_detected_iff tagged_injective tagged_ne_genesisHash true
    [(getObjectEvent "1", .acknowledged), (getObjectEvent "2", .acknowledged)]
    (trimmed_drop_twoEvents Nat.one_pos) (selected_drop_twoEvents 1)

private theorem drop_twoEvents_valid {n : Nat} (hn : 0 < n) :
    Trimmed twoEvents (twoEvents.drop n) "agent-data-001" ∧
      Selected (twoEvents.drop n) "agent-data-001" (twoEvents.drop n) ∧
      ReportsValid (verifyEndpoint tagged "agent-data-001"
        (.ok ((twoEvents.drop n).map (·.row fun _ ↦ "")))) := by
  refine ⟨trimmed_drop_twoEvents hn, selected_drop_twoEvents n, ?_⟩
  refine (reportsValid_iff tagged _ _ fun e he ↦ ?_).mpr (.inr ⟨?_, ?_⟩)
  · rw [(mem_twoEvents (List.mem_of_mem_drop he)).2.1]
    rfl
  · exact List.any_eq_false.mpr fun e he ↦ by
      simp [(mem_twoEvents (List.mem_of_mem_drop he)).2.2]
  · rw [verifyChain_iff]
    exact (published_grown _ (.new true) _).verifies.segment (List.drop_suffix n _).isInfix

/-- Whether the first of two events is lost or both are, what is left is reported valid. -/
theorem trimmed_reported_valid :
    (Trimmed twoEvents (twoEvents.drop 1) "agent-data-001" ∧
      Selected (twoEvents.drop 1) "agent-data-001" (twoEvents.drop 1) ∧
      ReportsValid (verifyEndpoint tagged "agent-data-001"
        (.ok ((twoEvents.drop 1).map (·.row fun _ ↦ ""))))) ∧
    Trimmed twoEvents (twoEvents.drop 2) "agent-data-001" ∧
      Selected (twoEvents.drop 2) "agent-data-001" (twoEvents.drop 2) ∧
      ReportsValid (verifyEndpoint tagged "agent-data-001"
        (.ok ((twoEvents.drop 2).map (·.row fun _ ↦ "")))) :=
  ⟨drop_twoEvents_valid Nat.one_pos, drop_twoEvents_valid Nat.two_pos⟩

end NhiSentinel.Audit
