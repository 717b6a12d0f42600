import Mathlib.Data.List.Basic
import Mathlib.Data.List.Nodup
import Mathlib.Logic.Function.Basic

/-!
# Expiring records with an index

A table of records that expire, beside a list of the keys of those that are open. The index
has no expiry of its own: a listing looks every key up and drops those it does not find.
-/

namespace NhiSentinel.Base

/-- Records under keys, the keys indexed as open, and the time. -/
structure IndexedTable (κ ρ : Type) where
  record : κ → Option ρ
  index : List κ
  now : Nat

namespace IndexedTable

variable {κ ρ : Type} (expires : ρ → Nat) (isOpen : ρ → Prop)

/-- The record of a key, unless it has expired. -/
def find (T : IndexedTable κ ρ) (k : κ) : Option ρ :=
  (T.record k).filter fun r ↦ T.now < expires r

/-- A new open record. -/
def insert [DecidableEq κ] (T : IndexedTable κ ρ) (k : κ) (r : ρ) : IndexedTable κ ρ where
  record := Function.update T.record k (some r)
  index := if k ∈ T.index then T.index else T.index ++ [k]
  now := T.now

/-- A record is replaced by one that is not open. -/
def close [DecidableEq κ] (T : IndexedTable κ ρ) (k : κ) (r : ρ) : IndexedTable κ ρ where
  record := Function.update T.record k (some r)
  index := T.index.filter (· ≠ k)
  now := T.now

/-- The keys whose records have expired are dropped from the index. -/
def prune (T : IndexedTable κ ρ) : IndexedTable κ ρ :=
  { T with index := T.index.filter fun k ↦ (T.find expires k).isSome }

/-- Time passes. -/
def advance (T : IndexedTable κ ρ) (now : Nat) : IndexedTable κ ρ := { T with now := now }

/-- The records found under the keys of the index. -/
def listing (T : IndexedTable κ ρ) : List ρ := T.index.filterMap (T.find expires)

/-- The index has the key of every open record that has not expired, once, and none of a record
that is not open. -/
structure Exact (T : IndexedTable κ ρ) : Prop where
  nodup : T.index.Nodup
  sound : ∀ k ∈ T.index, ∃ r, T.record k = some r ∧ isOpen r
  mem : ∀ k r, T.find expires k = some r → isOpen r → k ∈ T.index

variable {T : IndexedTable κ ρ} {expires isOpen}

/-- A record is found until it expires. -/
theorem find_eq_some_iff {k : κ} {r : ρ} :
    T.find expires k = some r ↔ T.record k = some r ∧ T.now < expires r := by
  rw [find, Option.filter_eq_some_iff, decide_eq_true_eq]

/-- A record that has expired is not found, nor is one that was never there. -/
theorem find_eq_none_iff {k : κ} :
    T.find expires k = none ↔ ∀ r, T.record k = some r → expires r ≤ T.now := by
  rw [find, Option.filter_eq_none_iff]
  apply forall_congr'
  intro r
  rw [decide_eq_true_eq, Nat.not_lt]

/-- What is found at a later time was found before. -/
theorem find_of_find_advance {k : κ} {r : ρ} {now : Nat} (hn : T.now ≤ now)
    (hf : (T.advance now).find expires k = some r) : T.find expires k = some r := by
  obtain ⟨hr, hl⟩ := find_eq_some_iff.mp hf
  exact find_eq_some_iff.mpr ⟨hr, Nat.lt_of_le_of_lt hn hl⟩

/-- Dropping the keys of expired records loses no open one. -/
theorem Exact.prune (h : T.Exact expires isOpen) : (T.prune expires).Exact expires isOpen where
  nodup := h.nodup.filter _
  sound k hm := h.sound k (List.mem_filter.mp hm).1
  mem k r hf ho := by
    rw [IndexedTable.prune, List.mem_filter]
    refine ⟨h.mem k r hf ho, ?_⟩
    exact Option.isSome_iff_exists.mpr ⟨r, hf⟩

/-- The index stays exact when time passes. -/
theorem Exact.advance (h : T.Exact expires isOpen) {now : Nat} (hn : T.now ≤ now) :
    (T.advance now).Exact expires isOpen where
  nodup := h.nodup
  sound := h.sound
  mem k r hf ho := h.mem k r (find_of_find_advance hn hf) ho

/-- The listing has the open records that have not expired, and no others. -/
theorem Exact.mem_listing (h : T.Exact expires isOpen) {r : ρ} :
    r ∈ T.listing expires ↔ ∃ k, T.find expires k = some r ∧ isOpen r := by
  rw [listing, List.mem_filterMap]
  constructor
  · rintro ⟨k, hm, hf⟩
    obtain ⟨r', hr', ho⟩ := h.sound k hm
    cases hr'.symm.trans (find_eq_some_iff.mp hf).1
    exact ⟨k, hf, ho⟩
  · rintro ⟨k, hf, ho⟩
    exact ⟨k, h.mem k r hf ho, hf⟩

/-- The listing has every record once. -/
theorem Exact.nodup_listing (h : T.Exact expires isOpen) {keyOf : ρ → κ}
    (hk : ∀ k r, T.record k = some r → keyOf r = k) :
    ((T.listing expires).map keyOf).Nodup := by
  have hmap : (T.listing expires).map keyOf =
      T.index.filter fun k ↦ (T.find expires k).isSome := by
    rw [listing, List.map_filterMap, ← List.filterMap_eq_filter]
    apply List.filterMap_congr
    intro k _
    cases hf : T.find expires k with
    | none => simp [Option.guard, hf]
    | some r => simp [Option.guard, hf, hk k r (find_eq_some_iff.mp hf).1]
  rw [hmap]
  exact h.nodup.filter _

section
variable [DecidableEq κ]

/-- The record under a key that is inserted. -/
@[simp] theorem record_insert_self (k : κ) (r : ρ) : (T.insert k r).record k = some r :=
  Function.update_self ..

/-- The records under other keys stay as they are. -/
theorem record_insert_of_ne {k k' : κ} (h : k' ≠ k) (r : ρ) :
    (T.insert k r).record k' = T.record k' := Function.update_of_ne h ..

/-- The record under a key that is closed. -/
@[simp] theorem record_close_self (k : κ) (r : ρ) : (T.close k r).record k = some r :=
  Function.update_self ..

/-- Closing a key leaves the records under other keys as they are. -/
theorem record_close_of_ne {k k' : κ} (h : k' ≠ k) (r : ρ) :
    (T.close k r).record k' = T.record k' := Function.update_of_ne h ..

/-- A key that has another record is not the one that was written. -/
theorem find_update_of_ne {k k' : κ} (h : k' ≠ k) (r : ρ) (index : List κ) :
    find expires ⟨Function.update T.record k (some r), index, T.now⟩ k' = T.find expires k' := by
  simp only [find, Function.update_of_ne h]

/-- A key that is inserted joins the index. -/
theorem mem_index_insert {k k' : κ} {r : ρ} :
    k' ∈ (T.insert k r).index ↔ k' ∈ T.index ∨ k' = k := by
  rw [insert]
  split
  · next h =>
    constructor
    · exact .inl
    · rintro (h' | rfl)
      · exact h'
      · exact h
  · rw [List.mem_append, List.mem_singleton]

/-- A new open record is indexed. -/
theorem Exact.insert (h : T.Exact expires isOpen) {k : κ} {r : ρ} (hr : isOpen r) :
    (T.insert k r).Exact expires isOpen where
  nodup := by
    rw [IndexedTable.insert]
    split
    · exact h.nodup
    · next hk =>
      apply h.nodup.append (List.nodup_singleton k)
      intro k' hm hs
      rw [List.mem_singleton] at hs
      exact hk (hs ▸ hm)
  sound k' hm := by
    by_cases he : k' = k
    · subst he
      exact ⟨r, record_insert_self k' r, hr⟩
    · obtain ⟨r', hf, ho⟩ := h.sound k' ((mem_index_insert.mp hm).resolve_right he)
      exact ⟨r', (record_insert_of_ne he r).trans hf, ho⟩
  mem k' r' hf ho := by
    rw [mem_index_insert]
    by_cases he : k' = k
    · exact .inr he
    · left
      apply h.mem k' r' _ ho
      rw [← hf]
      exact (find_update_of_ne he r _).symm

/-- A record that is no longer open is taken from the index. -/
theorem Exact.close (h : T.Exact expires isOpen) {k : κ} {r : ρ} (hr : ¬ isOpen r) :
    (T.close k r).Exact expires isOpen where
  nodup := h.nodup.filter _
  sound k' hm := by
    obtain ⟨hm, hk⟩ := List.mem_filter.mp hm
    have hne : k' ≠ k := of_decide_eq_true hk
    obtain ⟨r', hf, ho⟩ := h.sound k' hm
    exact ⟨r', (record_close_of_ne hne r).trans hf, ho⟩
  mem k' r' hf ho := by
    by_cases he : k' = k
    · subst he
      cases (record_close_self k' r).symm.trans (find_eq_some_iff.mp hf).1
      exact absurd ho hr
    · rw [IndexedTable.close, List.mem_filter]
      refine ⟨h.mem k' r' ?_ ho, decide_eq_true he⟩
      rw [← hf]
      exact (find_update_of_ne he r _).symm

end
end IndexedTable
end NhiSentinel.Base
