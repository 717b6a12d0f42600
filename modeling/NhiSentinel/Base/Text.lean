import Mathlib.Data.List.Infix

/-!
# Substrings of joined text

A pattern without the separator occurs in a separator-joined list exactly where it
occurs in one of the elements.
-/

namespace NhiSentinel.Base

variable {α : Type}

/-- A non-empty pattern without the separator does not straddle it. -/
theorem infix_append_cons_iff {sep : α} {p : List α} (hp : p ≠ []) (hs : sep ∉ p)
    (a b : List α) : p <:+: a ++ sep :: b ↔ p <:+: a ∨ p <:+: b := by
  constructor
  · rintro ⟨s, t, h⟩
    rw [List.append_assoc, List.append_eq_append_iff] at h
    rcases h with ⟨x, rfl, h⟩ | ⟨x, rfl, h⟩
    · -- the pattern starts inside `a`
      rw [List.append_eq_append_iff] at h
      rcases h with ⟨y, rfl, -⟩ | ⟨y, rfl, h⟩
      · exact .inl ⟨s, y, List.append_assoc ..⟩
      · cases y with
        | nil => exact .inl ⟨s, [], by simp⟩
        | cons c y =>
          rw [List.cons_append, List.cons.injEq] at h
          exact absurd (h.1 ▸ List.mem_append_right _ List.mem_cons_self) hs
    · -- it starts at the separator or after it
      cases x with
      | nil =>
        cases p with
        | nil => exact absurd rfl hp
        | cons c p =>
          rw [List.nil_append, List.cons_append, List.cons.injEq] at h
          exact absurd (h.1 ▸ List.mem_cons_self) hs
      | cons c x =>
        rw [List.cons_append, List.cons.injEq] at h
        exact .inr ⟨x, t, by rw [List.append_assoc]; exact h.2.symm⟩
  · rintro (h | h)
    · exact List.infix_append_of_infix_left h
    · exact List.infix_append_of_infix_right (List.infix_cons_iff.mpr (.inr h))

/-- Occurrence in a joined list is occurrence in an element. -/
theorem infix_intercalate_iff {sep : Char} {p : String} (hp : p ≠ "") (hs : sep ∉ p.toList)
    (ss : List String) :
    p.toList <:+: ((String.singleton sep).intercalate ss).toList ↔
      ∃ s ∈ ss, p.toList <:+: s.toList := by
  have hn : p.toList ≠ [] := fun h ↦ hp (String.toList_eq_nil_iff.mp h)
  induction ss with
  | nil => simp [hn]
  | cons s ss ih =>
    cases ss with
    | nil => simp
    | cons t ss =>
      rw [String.intercalate_cons_cons, String.toList_append, String.toList_append,
        String.toList_singleton, List.append_assoc, List.singleton_append,
        infix_append_cons_iff hn hs]
      simp only [ih, List.mem_cons, exists_eq_or_imp]

end NhiSentinel.Base
