import Mathlib.Data.List.Basic
import Mathlib.Logic.Function.Basic

/-!
# Subscriptions to a log

A consumer of a partitioned log that takes records in batches, may fail on single records,
and commits the offsets up to which it has read. What is below a committed offset is what
was handled, as long as every failure is made good before offsets are committed.
-/

namespace NhiSentinel.Base

/-- A log, the next offsets to read and the committed offsets, the records that were read and
are not handled yet, and those that failed since the consumer started. -/
structure Subscription (P M : Type) where
  log : P → List M
  position : P → Nat
  committed : P → Nat
  batch : List M
  failed : List M
  running : Bool

namespace Subscription

variable {P M : Type}

/-- Before the first record. -/
def empty : Subscription P M := ⟨fun _ ↦ [], fun _ ↦ 0, fun _ ↦ 0, [], [], false⟩

/-- A record is appended to a partition. -/
def produce [DecidableEq P] (s : Subscription P M) (p : P) (m : M) : Subscription P M :=
  { s with log := Function.update s.log p (s.log p ++ [m]) }

/-- A consumer starts to read at the committed offsets. -/
def start (s : Subscription P M) : Subscription P M :=
  { s with position := s.committed, batch := [], failed := [], running := true }

/-- The offsets that were read are committed. -/
def commit (s : Subscription P M) : Subscription P M := { s with committed := s.position }

/-- Up to a number of records of a partition are read. -/
def fetch [DecidableEq P] (s : Subscription P M) (r : P × Nat) : Subscription P M :=
  let records := ((s.log r.1).drop (s.position r.1)).take r.2
  { s with
    position := Function.update s.position r.1 (s.position r.1 + records.length)
    batch := s.batch ++ records }

/-- Records of several partitions are read. -/
def poll [DecidableEq P] (s : Subscription P M) (records : List (P × Nat)) : Subscription P M :=
  records.foldl fetch s

/-- The first record of the batch is done with, well or not. -/
def finish (s : Subscription P M) (m : M) (rest : List M) (ok : Bool) : Subscription P M :=
  { s with batch := rest, failed := if ok then s.failed else s.failed ++ [m] }

/-- The consumer ends, with what it has not handled. -/
def stop (s : Subscription P M) : Subscription P M := { s with batch := [], running := false }

/-- The records that were read. -/
def Read (s : Subscription P M) (m : M) : Prop := ∃ p, m ∈ (s.log p).take (s.position p)

/-- The records below the committed offsets. -/
def Committed (s : Subscription P M) (m : M) : Prop := ∃ p, m ∈ (s.log p).take (s.committed p)

/-! ### What is read -/

/-- All that a consumer holds or has failed on was read, and no offset is beyond the log. -/
structure Delivered (s : Subscription P M) : Prop where
  position : ∀ p, s.position p ≤ (s.log p).length
  committed : ∀ p, s.committed p ≤ (s.log p).length
  batch : ∀ m ∈ s.batch, s.Read m
  failed : ∀ m ∈ s.failed, s.Read m

section
variable {s : Subscription P M} {p : P} {m x : M}

/-- Nothing has been produced and nothing was delivered. -/
theorem delivered_empty : (empty : Subscription P M).Delivered :=
  ⟨fun _ ↦ Nat.zero_le _, fun _ ↦ Nat.zero_le _, fun _ hm ↦ absurd hm List.not_mem_nil,
    fun _ hm ↦ absurd hm List.not_mem_nil⟩

/-- Starting keeps what was delivered. -/
theorem Delivered.start (h : s.Delivered) : s.start.Delivered :=
  ⟨h.committed, h.committed, fun _ hm ↦ absurd hm List.not_mem_nil,
    fun _ hm ↦ absurd hm List.not_mem_nil⟩

/-- Committing keeps what was delivered. -/
theorem Delivered.commit (h : s.Delivered) : s.commit.Delivered :=
  ⟨h.position, h.position, h.batch, h.failed⟩

/-- Finishing a message keeps what was delivered. -/
theorem Delivered.finish (h : s.Delivered) {rest : List M} (hb : s.batch = m :: rest) (ok : Bool) :
    (s.finish m rest ok).Delivered := by
  have hm : s.Read m := h.batch m (hb ▸ List.mem_cons_self)
  refine ⟨h.position, h.committed, fun x hx ↦ h.batch x (hb ▸ List.mem_cons_of_mem _ hx), ?_⟩
  intro x hx
  cases ok with
  | true => exact h.failed x hx
  | false =>
    rcases List.mem_append.mp hx with hx | hx
    · exact h.failed x hx
    · cases List.mem_singleton.mp hx
      exact hm

/-- Stopping keeps what was delivered. -/
theorem Delivered.stop (h : s.Delivered) : s.stop.Delivered :=
  ⟨h.position, h.committed, fun _ hm ↦ absurd hm List.not_mem_nil, h.failed⟩

variable [DecidableEq P]

/-- A message goes to the end of its partition. -/
@[simp] theorem log_produce_self (s : Subscription P M) (p : P) (x : M) :
    (s.produce p x).log p = s.log p ++ [x] := Function.update_self ..

/-- The other partitions stay as they are. -/
theorem log_produce_of_ne {q : P} (h : q ≠ p) : (s.produce p x).log q = s.log q :=
  Function.update_of_ne h ..

/-- A fetch moves its partition on by the messages that are there. -/
@[simp] theorem position_fetch_self (s : Subscription P M) (r : P × Nat) :
    (s.fetch r).position r.1 =
      s.position r.1 + (((s.log r.1).drop (s.position r.1)).take r.2).length :=
  Function.update_self ..

/-- A fetch leaves the other partitions alone. -/
theorem position_fetch_of_ne {r : P × Nat} {q : P} (h : q ≠ r.1) :
    (s.fetch r).position q = s.position q := Function.update_of_ne h ..

private theorem take_produce {n : P → Nat} (hn : ∀ q, n q ≤ (s.log q).length) (q : P) :
    ((s.produce p x).log q).take (n q) = (s.log q).take (n q) := by
  by_cases hq : q = p
  · subst hq
    rw [log_produce_self, List.take_append_of_le_length (hn q)]
  · rw [log_produce_of_ne hq]

/-- A message that is produced is not read before it is fetched. -/
theorem Delivered.read_produce (h : s.Delivered) : (s.produce p x).Read m ↔ s.Read m :=
  exists_congr fun q ↦ by rw [← take_produce h.position]; rfl

/-- A message that is produced is not committed. -/
theorem Delivered.committed_produce (h : s.Delivered) :
    (s.produce p x).Committed m ↔ s.Committed m :=
  exists_congr fun q ↦ by rw [← take_produce h.committed]; rfl

/-- What is read after more is fetched. -/
theorem read_fetch {r : P × Nat} : (s.fetch r).Read m ↔
    s.Read m ∨ m ∈ ((s.log r.1).drop (s.position r.1)).take r.2 := by
  have htake : (s.log r.1).take (s.position r.1 +
      (((s.log r.1).drop (s.position r.1)).take r.2).length) =
        (s.log r.1).take (s.position r.1) ++ ((s.log r.1).drop (s.position r.1)).take r.2 := by
    rw [List.take_add]
    congr 1
    exact List.take_eq_take_iff.mpr (by rw [List.length_take]; omega)
  constructor
  · rintro ⟨q, hm⟩
    by_cases hq : q = r.1
    · subst hq
      rw [position_fetch_self] at hm
      exact (List.mem_append.mp (htake ▸ hm)).imp_left fun hm ↦ ⟨_, hm⟩
    · rw [position_fetch_of_ne hq] at hm
      exact .inl ⟨q, hm⟩
  · rintro (⟨q, hm⟩ | hm)
    · refine ⟨q, ?_⟩
      by_cases hq : q = r.1
      · subst hq
        rw [position_fetch_self]
        exact htake ▸ List.mem_append_left _ hm
      · rwa [position_fetch_of_ne hq]
    · refine ⟨r.1, ?_⟩
      rw [position_fetch_self]
      exact htake ▸ List.mem_append_right _ hm

/-- Producing keeps what was delivered. -/
theorem Delivered.produce (h : s.Delivered) (p : P) (x : M) : (s.produce p x).Delivered := by
  have hl (q : P) : (s.log q).length ≤ ((s.produce p x).log q).length := by
    by_cases hq : q = p
    · subst hq
      rw [log_produce_self, List.length_append]
      exact Nat.le_add_right _ _
    · exact Nat.le_of_eq (congrArg List.length (log_produce_of_ne hq).symm)
  exact ⟨fun q ↦ Nat.le_trans (h.position q) (hl q), fun q ↦ Nat.le_trans (h.committed q) (hl q),
    fun m hm ↦ h.read_produce.mpr (h.batch m hm), fun m hm ↦ h.read_produce.mpr (h.failed m hm)⟩

/-- A fetch delivers what it reads. -/
theorem Delivered.fetch (h : s.Delivered) (r : P × Nat) : (s.fetch r).Delivered := by
  refine ⟨fun q ↦ ?_, h.committed, fun m hm ↦ read_fetch.mpr ?_,
    fun m hm ↦ read_fetch.mpr (.inl (h.failed m hm))⟩
  · show (s.fetch r).position q ≤ (s.log q).length
    by_cases hq : q = r.1
    · subst hq
      have hp := h.position r.1
      rw [position_fetch_self, List.length_take, List.length_drop]
      omega
    · rw [position_fetch_of_ne hq]
      exact h.position q
  · exact (List.mem_append.mp hm).imp_left (h.batch m)

/-- A poll delivers what it reads. -/
theorem Delivered.poll (h : s.Delivered) (records : List (P × Nat)) :
    (s.poll records).Delivered := by
  induction records generalizing s with
  | nil => exact h
  | cons r records ih => exact ih (h.fetch r)

/-- A poll leaves the partitions as they are. -/
theorem log_poll (records : List (P × Nat)) : (s.poll records).log = s.log := by
  induction records generalizing s with
  | nil => rfl
  | cons r records ih => exact ih

/-- Offsets are committed before more is read. -/
theorem committed_poll {records : List (P × Nat)} :
    (s.poll records).Committed m ↔ s.Committed m := by
  induction records generalizing s with
  | nil => exact Iff.rfl
  | cons r records ih => exact ih

end

/-! ### What is done -/

/-- Records below the committed offsets are done, and those that were read are done, failed or
waiting. -/
structure Covered (Done : M → Prop) (s : Subscription P M) : Prop where
  committed : ∀ m, s.Committed m → Done m
  read : s.running = true → ∀ m, s.Read m → Done m ∨ m ∈ s.batch ∨ m ∈ s.failed

section
variable {Done Done' : M → Prop} {s : Subscription P M} {m : M}

/-- Nothing is committed at the beginning. -/
theorem covered_empty : Covered Done (empty : Subscription P M) where
  committed _ h := h.elim fun _ hm ↦ absurd hm List.not_mem_nil
  read h := nomatch h

/-- What is done stays done. -/
theorem Covered.mono (h : s.Covered Done) (hd : ∀ m, Done m → Done' m) : s.Covered Done' :=
  ⟨fun m hm ↦ hd m (h.committed m hm), fun hr m hm ↦ (h.read hr m hm).imp_left (hd m)⟩

/-- Starting keeps the commits made good. -/
theorem Covered.start (h : s.Covered Done) : s.start.Covered Done :=
  ⟨h.committed, fun _ m hm ↦ .inl (h.committed m hm)⟩

/-- Offsets are committed when nothing waits and all that failed is done after all. -/
theorem Covered.commit (h : s.Covered Done) (hr : s.running = true) (hb : s.batch = [])
    (hf : ∀ m ∈ s.failed, Done m) : s.commit.Covered Done := by
  refine ⟨fun m hm ↦ ?_, h.read⟩
  rcases h.read hr m hm with hd | hm | hm
  · exact hd
  · rw [hb] at hm
    exact absurd hm List.not_mem_nil
  · exact hf m hm

/-- A record is done or has failed. -/
theorem Covered.finish (h : s.Covered Done) {rest : List M} (hb : s.batch = m :: rest) {ok : Bool}
    (hok : ok = true → Done m) : (s.finish m rest ok).Covered Done := by
  refine ⟨h.committed, fun hr x hx ↦ ?_⟩
  have hfailed (hf : x ∈ s.failed) : x ∈ (s.finish m rest ok).failed := by
    cases ok with
    | true => exact hf
    | false => exact List.mem_append_left _ hf
  rcases h.read hr x hx with hd | hm | hm
  · exact .inl hd
  · rw [hb] at hm
    rcases List.mem_cons.mp hm with rfl | hm
    · cases ok with
      | true => exact .inl (hok rfl)
      | false => exact .inr (.inr (List.mem_append_right _ (List.mem_singleton_self _)))
    · exact .inr (.inl hm)
  · exact .inr (.inr (hfailed hm))

/-- Stopping keeps the commits made good. -/
theorem Covered.stop (h : s.Covered Done) : s.stop.Covered Done :=
  ⟨h.committed, fun hr ↦ nomatch hr⟩

variable [DecidableEq P]

/-- Producing keeps the commits made good. -/
theorem Covered.produce (h : s.Covered Done) (hs : s.Delivered) (p : P) (x : M) :
    (s.produce p x).Covered Done :=
  ⟨fun m hm ↦ h.committed m (hs.committed_produce.mp hm),
    fun hr m hm ↦ h.read hr m (hs.read_produce.mp hm)⟩

/-- A fetch keeps the commits made good. -/
theorem Covered.fetch (h : s.Covered Done) (r : P × Nat) : (s.fetch r).Covered Done := by
  refine ⟨h.committed, fun hr m hm ↦ ?_⟩
  rcases read_fetch.mp hm with hm | hm
  · exact (h.read hr m hm).imp_right (.imp_left (List.mem_append_left _))
  · exact .inr (.inl (List.mem_append_right _ hm))

/-- A poll keeps the commits made good. -/
theorem Covered.poll (h : s.Covered Done) (records : List (P × Nat)) :
    (s.poll records).Covered Done := by
  induction records generalizing s with
  | nil => exact h
  | cons r records ih => exact ih (h.fetch r)

end
end Subscription
end NhiSentinel.Base
