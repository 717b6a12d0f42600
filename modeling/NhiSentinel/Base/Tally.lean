import Mathlib.Data.List.Basic
import Mathlib.Data.List.Induction
import Mathlib.Data.List.Nodup

/-!
# Counting in a dictionary

How often each key is in a list, counted in a dictionary that keeps its keys in the order in
which they came, and the keys that are there most often by a stable sort of the counts.
-/

namespace NhiSentinel.Base

variable {α κ : Type}

/-! ### Stable sorting -/

/-- A stable sort is ordered, and where the order does not decide, as the list was. -/
theorem pairwise_mergeSort_stable {le : α → α → Bool} {R : α → α → Prop}
    (trans : ∀ a b c, le a b → le b c → le a c) (total : ∀ a b, le a b || le b a) {l : List α}
    (h : l.Pairwise R) :
    (l.mergeSort le).Pairwise fun a b ↦ le a b = true ∧ (le b a = true → R a b) := by
  induction l with
  | nil => rw [List.mergeSort_nil]; exact .nil
  | cons a l ih =>
    rw [List.pairwise_cons] at h
    have hs := List.pairwise_mergeSort trans total (a :: l)
    obtain ⟨before, after, hal, hl, hb⟩ := List.mergeSort_cons trans total a l
    have hi := ih h.2
    rw [hl, List.pairwise_append] at hi
    rw [hal, List.pairwise_append, List.pairwise_cons] at hs ⊢
    refine ⟨hi.1, ⟨fun b hm ↦ ⟨hs.2.1.1 b hm, fun _ ↦ h.1 b ?_⟩, hi.2.1⟩, fun b hm c hc ↦ ?_⟩
    · have hmem : b ∈ l.mergeSort le := hl ▸ List.mem_append_right _ hm
      exact List.mem_mergeSort.mp hmem
    · rcases List.mem_cons.mp hc with rfl | hc
      · have hn := hb b hm
        rw [Bool.not_eq_true'] at hn
        refine ⟨hs.2.2 b hm c List.mem_cons_self, fun hcb ↦ ?_⟩
        exact absurd (hn.symm.trans hcb) Bool.false_ne_true
      · exact hi.2.2 b hm c hc

/-! ### Counting -/

variable [DecidableEq κ]

/-- One more of a key. -/
def bump (k : κ) : List (κ × Nat) → List (κ × Nat)
  | [] => [(k, 1)]
  | (j, n) :: rest => if j = k then (j, n + 1) :: rest else (j, n) :: bump k rest

/-- The counts of a list. -/
def tally (ks : List κ) : List (κ × Nat) := ks.foldl (fun counts k ↦ bump k counts) []

example : tally ['a', 'b', 'a', 'c', 'b', 'a'] = [('a', 3), ('b', 2), ('c', 1)] := by decide

/-- A list of counts is the tally of a list: each key of it once with its count, in the order of
their first places. -/
structure Counts (ks : List κ) (counts : List (κ × Nat)) : Prop where
  mem : ∀ k n, (k, n) ∈ counts ↔ k ∈ ks ∧ n = ks.count k
  order : (counts.map Prod.fst).Pairwise fun j k ↦ ks.idxOf j < ks.idxOf k

/-- Counting a key adds it to the keys, if it is new. -/
theorem keys_bump (k : κ) (counts : List (κ × Nat)) :
    (bump k counts).map Prod.fst =
      if k ∈ counts.map Prod.fst then counts.map Prod.fst else counts.map Prod.fst ++ [k] := by
  induction counts with
  | nil => rfl
  | cons c counts ih =>
    obtain ⟨j, n⟩ := c
    rw [bump]
    by_cases h : j = k
    · rw [if_pos h, List.map_cons, List.map_cons, if_pos (h ▸ List.mem_cons_self)]
    · rw [if_neg h, List.map_cons, ih, List.map_cons]
      have hm : k ∈ j :: counts.map Prod.fst ↔ k ∈ counts.map Prod.fst :=
        ⟨fun hk ↦ (List.mem_cons.mp hk).resolve_left (Ne.symm h), List.mem_cons_of_mem _⟩
      simp only [hm]
      split <;> rfl

/-- The keys of a bumped dictionary that are not bumped keep their counts. -/
theorem mem_bump_of_ne {j k : κ} (h : j ≠ k) (n : Nat) (counts : List (κ × Nat)) :
    (j, n) ∈ bump k counts ↔ (j, n) ∈ counts := by
  induction counts with
  | nil => simp [bump, h]
  | cons c counts ih =>
    obtain ⟨i, m⟩ := c
    rw [bump]
    split
    · next hi =>
      subst hi
      simp [h]
    · rw [List.mem_cons, List.mem_cons, ih]

/-- The key that is bumped counts one more. -/
theorem mem_bump_self {k : κ} {counts : List (κ × Nat)} (hd : (counts.map Prod.fst).Nodup)
    (n : Nat) :
    (k, n) ∈ bump k counts ↔
      (∃ m, (k, m) ∈ counts ∧ n = m + 1) ∨ k ∉ counts.map Prod.fst ∧ n = 1 := by
  induction counts with
  | nil => simp [bump]
  | cons c counts ih =>
    obtain ⟨j, m⟩ := c
    rw [List.map_cons, List.nodup_cons] at hd
    have hn (x : Nat) (hx : (k, x) ∈ counts) : k ∈ counts.map Prod.fst :=
      List.mem_map.mpr ⟨_, hx, rfl⟩
    rw [bump]
    by_cases h : j = k
    · subst h
      rw [if_pos rfl]
      constructor
      · intro hm
        rcases List.mem_cons.mp hm with he | hm
        · cases he
          exact .inl ⟨m, List.mem_cons_self, rfl⟩
        · exact absurd (hn n hm) hd.1
      · rintro (⟨x, hx, rfl⟩ | ⟨hk, -⟩)
        · rcases List.mem_cons.mp hx with he | hx
          · cases he
            exact List.mem_cons_self
          · exact absurd (hn x hx) hd.1
        · exact absurd List.mem_cons_self hk
    · rw [if_neg h, List.mem_cons, ih hd.2]
      simp [Ne.symm h]

/-- No key is counted twice. -/
theorem Counts.nodup {ks : List κ} {counts : List (κ × Nat)} (h : Counts ks counts) :
    (counts.map Prod.fst).Nodup :=
  h.order.imp fun hlt ↦ fun he ↦ (Nat.lt_irrefl _ (he ▸ hlt))

/-- The keys that are counted are those of the list. -/
theorem Counts.mem_keys {ks : List κ} {counts : List (κ × Nat)} (h : Counts ks counts) {k : κ} :
    k ∈ counts.map Prod.fst ↔ k ∈ ks := by
  rw [List.mem_map]
  constructor
  · rintro ⟨⟨j, n⟩, hm, rfl⟩
    exact ((h.mem j n).mp hm).1
  · exact fun hk ↦ ⟨(k, ks.count k), (h.mem k _).mpr ⟨hk, rfl⟩, rfl⟩

/-- One more key is counted. -/
theorem Counts.bump {ks : List κ} {counts : List (κ × Nat)} (h : Counts ks counts) (k : κ) :
    Counts (ks ++ [k]) (Base.bump k counts) := by
  have hidx (j : κ) (hj : j ∈ ks) : (ks ++ [k]).idxOf j = ks.idxOf j := List.idxOf_append_of_mem hj
  have hp : (counts.map Prod.fst).Pairwise fun i j ↦
      (ks ++ [k]).idxOf i < (ks ++ [k]).idxOf j := by
    refine h.order.imp_of_mem fun hi hj hlt ↦ ?_
    rw [hidx _ (h.mem_keys.mp hi), hidx _ (h.mem_keys.mp hj)]
    exact hlt
  constructor
  · intro j n
    by_cases hj : j = k
    · subst hj
      rw [mem_bump_self h.nodup, h.mem_keys, List.count_append, List.count_singleton_self]
      constructor
      · rintro (⟨m, hm, rfl⟩ | ⟨hn, rfl⟩)
        · exact ⟨List.mem_append_right _ List.mem_cons_self, by rw [((h.mem j m).mp hm).2]⟩
        · exact ⟨List.mem_append_right _ List.mem_cons_self, by rw [List.count_eq_zero.mpr hn]⟩
      · rintro ⟨-, rfl⟩
        by_cases hm : j ∈ ks
        · exact .inl ⟨ks.count j, (h.mem j _).mpr ⟨hm, rfl⟩, rfl⟩
        · exact .inr ⟨hm, by rw [List.count_eq_zero.mpr hm]⟩
    · rw [mem_bump_of_ne hj, h.mem, List.count_append, List.count_singleton,
        if_neg (by simpa using Ne.symm hj), Nat.add_zero, List.mem_append, List.mem_singleton]
      simp [hj]
  · rw [keys_bump]
    split
    · exact hp
    · next hk =>
      rw [h.mem_keys] at hk
      rw [List.pairwise_append]
      refine ⟨hp, List.pairwise_singleton _ _, fun i hi j hj ↦ ?_⟩
      have hi := h.mem_keys.mp hi
      rw [List.mem_singleton.mp hj, hidx i hi, List.idxOf_append_of_notMem hk,
        List.idxOf_cons_self]
      exact List.idxOf_lt_length_of_mem hi

/-- The tally counts the keys. -/
theorem counts_tally (ks : List κ) : Counts ks (tally ks) := by
  induction ks using List.reverseRecOn with
  | nil => exact ⟨fun _ _ ↦ ⟨nofun, nofun⟩, .nil⟩
  | append_singleton ks k ih =>
    rw [tally, List.foldl_append]
    exact ih.bump k

/-! ### The most frequent -/

/-- The order by falling counts. -/
def countsAtLeast (a b : κ × Nat) : Bool := b.2 ≤ a.2

/-- The counts of a list, the greatest first. -/
def ranking (ks : List κ) : List (κ × Nat) := (tally ks).mergeSort countsAtLeast

/-- A key comes before another: it is there more often, or as often and earlier. -/
def Outranks (ks : List κ) (j k : κ) : Prop :=
  ks.count k < ks.count j ∨ ks.count j = ks.count k ∧ ks.idxOf j < ks.idxOf k

/-- The ranking lists every key with its count. -/
theorem mem_ranking {ks : List κ} {k : κ} {n : Nat} :
    (k, n) ∈ ranking ks ↔ k ∈ ks ∧ n = ks.count k :=
  List.mem_mergeSort.trans ((counts_tally ks).mem k n)

/-- Every key comes before the keys that it outranks. -/
theorem ranking_pairwise (ks : List κ) :
    (ranking ks).Pairwise fun a b ↦ Outranks ks a.1 b.1 := by
  have ho := List.pairwise_map.mp (counts_tally ks).order
  have trans (a b c : κ × Nat) (hab : countsAtLeast a b) (hbc : countsAtLeast b c) :
      countsAtLeast a c :=
    decide_eq_true (Nat.le_trans (of_decide_eq_true hbc) (of_decide_eq_true hab))
  have total (a b : κ × Nat) : countsAtLeast a b || countsAtLeast b a := by
    rw [countsAtLeast, countsAtLeast, Bool.or_eq_true, decide_eq_true_eq, decide_eq_true_eq]
    exact Nat.le_total b.2 a.2
  have hs : (ranking ks).Pairwise _ := pairwise_mergeSort_stable trans total ho
  refine hs.imp_of_mem fun {a b} ha hb ⟨hle, hr⟩ ↦ ?_
  have hle := of_decide_eq_true hle
  rw [(mem_ranking.mp ha).2, (mem_ranking.mp hb).2] at hle
  rcases Nat.lt_or_eq_of_le hle with hlt | he
  · exact .inl hlt
  · refine .inr ⟨he.symm, hr (decide_eq_true ?_)⟩
    rw [(mem_ranking.mp ha).2, (mem_ranking.mp hb).2]
    exact Nat.le_of_eq he.symm

/-- A list of counts shows the first keys of a ranking. -/
structure Leads (ks : List κ) (limit : Nat) (counts : List (κ × Nat)) : Prop where
  counted : ∀ k n, (k, n) ∈ counts → k ∈ ks ∧ n = ks.count k
  ordered : counts.Pairwise fun a b ↦ Outranks ks a.1 b.1
  leading : ∀ k ∈ ks, k ∉ counts.map Prod.fst → ∀ a ∈ counts, Outranks ks a.1 k
  full : ∀ k ∈ ks, k ∉ counts.map Prod.fst → counts.length = limit
  length_le : counts.length ≤ limit

/-- The beginning of the ranking leads. -/
theorem leads_ranking (ks : List κ) (limit : Nat) : Leads ks limit ((ranking ks).take limit) where
  counted _ _ hm := mem_ranking.mp (List.mem_of_mem_take hm)
  ordered := (ranking_pairwise ks).sublist (List.take_sublist _ _)
  leading k hk hn a ha := by
    have hp := ranking_pairwise ks
    rw [← List.take_append_drop limit (ranking ks), List.pairwise_append] at hp
    have hm : (k, ks.count k) ∈ ranking ks := mem_ranking.mpr ⟨hk, rfl⟩
    rw [← List.take_append_drop limit (ranking ks), List.mem_append] at hm
    refine hp.2.2 a ha _ (hm.resolve_left fun ht ↦ hn ?_)
    exact List.mem_map.mpr ⟨_, ht, rfl⟩
  full k hk hn := by
    have hm : (k, ks.count k) ∈ ranking ks := mem_ranking.mpr ⟨hk, rfl⟩
    rw [List.length_take]
    refine Nat.min_eq_left (Nat.le_of_not_lt fun hl ↦ hn ?_)
    rw [List.take_of_length_le (Nat.le_of_lt hl)]
    exact List.mem_map.mpr ⟨_, hm, rfl⟩
  length_le := List.length_take_le _ _

end NhiSentinel.Base
