import Mathlib.Data.List.Infix
import Mathlib.Data.List.TakeWhile

/-!
# Replacing or removing a substring, and splitting once

`str.replace(old, new)`, `str.replace(old, "")` and `str.split(sep, 1)` on texts: a text without
the pattern is left as it is, a text with it gets shorter when it is removed, and a separator
that is not part of the pattern is in no occurrence.
-/

namespace NhiSentinel.Base.Python

variable {α : Type} [DecidableEq α]

/-- The text without the occurrences of a non-empty pattern, from the left; the first number is
how much of an occurrence is still to be skipped. -/
def removeFrom (old : List α) : Nat → List α → List α
  | _, [] => []
  | n + 1, _ :: s => removeFrom old n s
  | 0, c :: s =>
    if old <+: c :: s then removeFrom old (old.length - 1) s else c :: removeFrom old 0 s

/-- `str.replace(old, "")` on characters. -/
def removeAll (old s : List α) : List α := removeFrom old 0 s

/-- The text with another one for the occurrences of a non-empty pattern, from the left. -/
def replaceFrom (old new : List α) : Nat → List α → List α
  | _, [] => []
  | n + 1, _ :: s => replaceFrom old new n s
  | 0, c :: s =>
    if old <+: c :: s then new ++ replaceFrom old new (old.length - 1) s
    else c :: replaceFrom old new 0 s

/-- `str.replace(old, new)` on characters. -/
def replaceAll (old new s : List α) : List α := replaceFrom old new 0 s

/-- `str.split(sep, 1)` on characters: the text, or what is before and after the first
separator. -/
def splitOnce (sep : α) (s : List α) : List (List α) :=
  match s.dropWhile (· ≠ sep) with
  | [] => [s]
  | _ :: rest => [s.takeWhile (· ≠ sep), rest]

/-! ### Replacement -/

/-- Nothing is left of a text that is skipped. -/
theorem replaceFrom_skip (old new a : List α) : replaceFrom old new a.length a = [] := by
  induction a with
  | nil => rfl
  | cons c a ih => exact ih

/-- An occurrence at the end, and no other. -/
theorem replaceAll_append {old : List α} (hn : old ≠ []) (new : List α) {a : List α}
    (h : ¬ old <:+: (a ++ old).dropLast) : replaceAll old new (a ++ old) = a ++ new := by
  induction a with
  | nil =>
    cases old with
    | nil => exact absurd rfl hn
    | cons c old =>
      rw [List.nil_append, replaceAll, replaceFrom, if_pos (List.prefix_refl _),
        List.length_cons, Nat.add_sub_cancel, replaceFrom_skip, List.append_nil, List.nil_append]
  | cons c a ih =>
    have hne : a ++ old ≠ [] := List.append_ne_nil_of_right_ne_nil a hn
    rw [List.cons_append, List.dropLast_cons_of_ne_nil hne, List.infix_cons_iff, not_or] at h
    have hp : ¬ old <+: c :: (a ++ old) := by
      intro hp
      have hd : c :: (a ++ old).dropLast <+: c :: (a ++ old) :=
        (List.prefix_cons_inj c).mpr (List.dropLast_prefix _)
      refine h.1 (List.prefix_of_prefix_length_le hp hd ?_)
      rw [List.length_cons, List.length_dropLast, List.length_append]
      omega
    rw [List.cons_append, replaceAll, replaceFrom, if_neg hp, List.cons_append]
    exact congrArg _ (ih h.2)

/-! ### Removal -/

/-- What is skipped is not looked at. -/
theorem removeFrom_skip (old a s : List α) :
    removeFrom old a.length (a ++ s) = removeFrom old 0 s := by
  induction a with
  | nil => rfl
  | cons c a ih => exact ih

/-- An occurrence at the front is removed. -/
theorem removeAll_append {old : List α} (h : old ≠ []) (s : List α) :
    removeAll old (old ++ s) = removeAll old s := by
  cases old with
  | nil => exact absurd rfl h
  | cons c old =>
    have hp : c :: old <+: c :: (old ++ s) := List.prefix_append (c :: old) s
    rw [removeAll, List.cons_append, removeFrom, if_pos hp]
    exact removeFrom_skip (c :: old) old s

/-- A text without the pattern is left as it is. -/
theorem removeAll_of_not_infix {old s : List α} (h : ¬ old <:+: s) : removeAll old s = s := by
  induction s with
  | nil => rfl
  | cons c s ih =>
    rw [List.infix_cons_iff, not_or] at h
    rw [removeAll, removeFrom, if_neg h.1]
    exact congrArg _ (ih h.2)

/-- Removing makes a text no longer. -/
theorem length_removeFrom_le (old : List α) (n : Nat) (s : List α) :
    (removeFrom old n s).length ≤ s.length := by
  induction s generalizing n with
  | nil => exact Nat.zero_le _
  | cons c s ih =>
    cases n with
    | succ n => exact Nat.le_succ_of_le (ih n)
    | zero =>
      rw [removeFrom]
      split
      · exact Nat.le_succ_of_le (ih _)
      · exact Nat.succ_le_succ (ih 0)

/-- A text with the pattern gets shorter. -/
theorem length_removeAll_lt {old s : List α} (hn : old ≠ []) (h : old <:+: s) :
    (removeAll old s).length < s.length := by
  induction s with
  | nil => exact absurd (List.infix_nil.mp h) hn
  | cons c s ih =>
    rw [removeAll, removeFrom]
    split
    · exact Nat.lt_succ_of_le (length_removeFrom_le old _ s)
    · next hp =>
      rw [List.infix_cons_iff] at h
      exact Nat.succ_lt_succ (ih (h.resolve_left hp))

/-- Removing brings in no characters. -/
theorem mem_of_mem_removeFrom {old : List α} {n : Nat} {s : List α} {x : α}
    (h : x ∈ removeFrom old n s) : x ∈ s := by
  induction s generalizing n with
  | nil => exact h
  | cons c s ih =>
    cases n with
    | succ n => exact List.mem_cons_of_mem _ (ih h)
    | zero =>
      rw [removeFrom] at h
      split at h
      · exact List.mem_cons_of_mem _ (ih h)
      · rw [List.mem_cons] at h
        rcases h with rfl | h
        · exact List.mem_cons_self
        · exact List.mem_cons_of_mem _ (ih h)

omit [DecidableEq α] in
/-- A pattern without the separator at the front of a text ends before it. -/
theorem prefix_append_cons_iff {old : List α} {sep : α} (hs : sep ∉ old) (a b : List α) :
    old <+: a ++ sep :: b ↔ old <+: a := by
  constructor
  · intro h
    rcases List.prefix_or_prefix_of_prefix h (List.prefix_append a (sep :: b)) with ho | ho
    · exact ho
    · obtain ⟨x, rfl⟩ := ho
      rw [List.prefix_append_right_inj] at h
      cases x with
      | nil => rw [List.append_nil]
      | cons c x =>
        have hc := (List.cons_prefix_cons.mp h).1
        exact absurd (by simp [hc]) hs
  · exact fun h ↦ h.trans (List.prefix_append _ _)

private theorem removeFrom_append_cons {old : List α} {sep : α} (hn : old ≠ []) (hs : sep ∉ old)
    {n : Nat} {a : List α} (h : n ≤ a.length) (b : List α) :
    removeFrom old n (a ++ sep :: b) = removeFrom old n a ++ sep :: removeAll old b := by
  induction a generalizing n with
  | nil =>
    have hp : ¬ old <+: sep :: b := by
      rw [← List.nil_append (sep :: b), prefix_append_cons_iff hs, List.prefix_nil]
      exact hn
    rw [Nat.le_zero.mp h]
    exact if_neg hp
  | cons c a ih =>
    cases n with
    | succ n => exact ih (Nat.le_of_succ_le_succ h)
    | zero =>
      have hp : old <+: c :: (a ++ sep :: b) ↔ old <+: c :: a :=
        prefix_append_cons_iff hs (c :: a) b
      rw [List.cons_append, removeFrom, removeFrom]
      by_cases hc : old <+: c :: a
      · have hl : old.length - 1 ≤ a.length := Nat.sub_le_of_le_add hc.length_le
        rw [if_pos hc, if_pos (hp.mpr hc), ih hl]
      · rw [if_neg hc, if_neg (fun h ↦ hc (hp.mp h)), ih (Nat.zero_le _), List.cons_append]

/-- No occurrence straddles a separator that is not part of the pattern. -/
theorem removeAll_append_cons {old : List α} {sep : α} (hn : old ≠ []) (hs : sep ∉ old)
    (a b : List α) :
    removeAll old (a ++ sep :: b) = removeAll old a ++ sep :: removeAll old b :=
  removeFrom_append_cons hn hs (Nat.zero_le _) b

/-- The separators stay where they are. -/
theorem mem_removeAll_iff {old : List α} {sep : α} (hn : old ≠ []) (hs : sep ∉ old)
    (s : List α) : sep ∈ removeAll old s ↔ sep ∈ s := by
  constructor
  · exact mem_of_mem_removeFrom
  · intro h
    obtain ⟨a, b, rfl⟩ := List.append_of_mem h
    rw [removeAll_append_cons hn hs]
    exact List.mem_append_right _ List.mem_cons_self

/-! ### Splitting -/

/-- A text without the separator is not split. -/
theorem splitOnce_of_not_mem {sep : α} {s : List α} (h : sep ∉ s) : splitOnce sep s = [s] := by
  have hd : s.dropWhile (· ≠ sep) = [] := by
    rw [List.dropWhile_eq_nil_iff]
    intro c hc
    rw [decide_eq_true_eq]
    rintro rfl
    exact h hc
  rw [splitOnce, hd]

/-- A text is split at its first separator. -/
theorem splitOnce_append_cons {sep : α} {a : List α} (h : sep ∉ a) (b : List α) :
    splitOnce sep (a ++ sep :: b) = [a, b] := by
  have ha : ∀ c ∈ a, decide (c ≠ sep) = true := by
    intro c hc
    rw [decide_eq_true_eq]
    rintro rfl
    exact h hc
  have hd : (a ++ sep :: b).dropWhile (· ≠ sep) = sep :: b := by
    rw [List.dropWhile_append_of_pos ha, List.dropWhile_cons_of_neg (by simp)]
  have ht : (a ++ sep :: b).takeWhile (· ≠ sep) = a := by
    rw [List.takeWhile_append_of_pos ha, List.takeWhile_cons_of_neg (by simp), List.append_nil]
  rw [splitOnce, hd, ht]

/-- Two parts are what is before and after the first separator. -/
theorem splitOnce_eq_pair_iff {sep : α} {s a b : List α} :
    splitOnce sep s = [a, b] ↔ s = a ++ sep :: b ∧ sep ∉ a := by
  constructor
  · intro h
    by_cases hs : sep ∈ s
    · obtain ⟨a', b', rfl, hn⟩ := List.eq_append_cons_of_mem hs
      rw [splitOnce_append_cons hn] at h
      cases h
      exact ⟨rfl, hn⟩
    · rw [splitOnce_of_not_mem hs] at h
      cases h
  · rintro ⟨rfl, h⟩
    exact splitOnce_append_cons h b

end NhiSentinel.Base.Python
