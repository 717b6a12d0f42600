import Mathlib.Data.List.Basic

/-!
# Last writes

A history of events some of which write a register: what was written last. Tasks that write
two registers alike, and that do not overlap unless they write the same, leave the registers
alike.
-/

namespace NhiSentinel.Base

section
variable {E V ι : Type}

/-- What was written last, if anything was. -/
def lastWrite (writes : E → Option V) (t : List E) : Option V := (t.filterMap writes).getLast?

variable {writes writes' : E → Option V} {t u : List E} {e : E} {v : V}

/-- The last write of a trace is that of its last event, if it writes. -/
@[simp] theorem lastWrite_append_singleton :
    lastWrite writes (t ++ [e]) = (writes e).or (lastWrite writes t) := by
  unfold lastWrite
  cases h : writes e <;> simp [List.filterMap_append, h]

/-- There is no last write if no event writes. -/
theorem lastWrite_eq_none : lastWrite writes t = none ↔ ∀ e ∈ t, writes e = none := by
  simp [lastWrite]

/-- The last write is one after which there is none. -/
theorem lastWrite_eq_some :
    lastWrite writes t = some v ↔
      ∃ t₁ e t₂, t = t₁ ++ e :: t₂ ∧ writes e = some v ∧ ∀ e' ∈ t₂, writes e' = none := by
  rw [lastWrite, List.getLast?_eq_some_iff]
  constructor
  · rintro ⟨vs, h⟩
    obtain ⟨t₁, t₂, rfl, -, h₂⟩ := List.filterMap_eq_append_iff.mp h
    obtain ⟨u₁, e, u₂, rfl, -, hv, hn⟩ := List.filterMap_eq_cons_iff.mp h₂
    exact ⟨t₁ ++ u₁, e, u₂, (List.append_assoc ..).symm, hv, List.filterMap_eq_nil_iff.mp hn⟩
  · rintro ⟨t₁, e, t₂, rfl, hv, hn⟩
    refine ⟨t₁.filterMap writes, ?_⟩
    rw [List.filterMap_append, List.filterMap_cons_some hv, List.filterMap_eq_nil_iff.mpr hn]

/-- Where the end of a history writes, the last write is in it. -/
theorem last_mem_end {t₁ t₂ u₁ u₂ : List E} (h : t₁ ++ t₂ = u₁ ++ e :: u₂)
    (hn : ∀ e' ∈ u₂, writes e' = none) (hw : ∃ e' ∈ t₂, writes e' ≠ none) : e ∈ t₂ := by
  rcases List.append_eq_append_iff.mp h with ⟨a, rfl, rfl⟩ | ⟨c, rfl, hc⟩
  · exact List.mem_append_right a List.mem_cons_self
  · cases c with
    | nil =>
      rw [List.nil_append] at hc
      rw [← hc]
      exact List.mem_cons_self
    | cons x c =>
      obtain ⟨e', he, hw⟩ := hw
      cases hc
      exact absurd (hn e' (List.mem_append_right c he)) hw

/-! ### Two registers -/

/-- A task is over before another begins. -/
def Before (owner : E → ι) (t : List E) (i j : ι) : Prop :=
  ∃ t₁ t₂, t = t₁ ++ t₂ ∧ (∀ e ∈ t₁, owner e ≠ j) ∧ ∀ e ∈ t₂, owner e ≠ i

/-- Every write of the first register is by a task that writes the second one too, with the
same value. -/
def Paired (owner : E → ι) (value : ι → V) (writes writes' : E → Option V) (t : List E) : Prop :=
  ∀ e ∈ t, ∀ v, writes e = some v →
    v = value (owner e) ∧ ∃ e' ∈ t, owner e' = owner e ∧ writes' e' = some v

variable {owner : E → ι} {value : ι → V}

/-- Where the first register is never written, the second is not. -/
theorem Paired.lastWrite_eq_none (hp : Paired owner value writes' writes t)
    (h : lastWrite writes t = none) : lastWrite writes' t = none := by
  rw [Base.lastWrite_eq_none] at h ⊢
  intro e he
  by_contra hv
  obtain ⟨v, hv⟩ := Option.ne_none_iff_exists'.mp hv
  obtain ⟨-, e', he', -, hv'⟩ := hp e he v hv
  rw [h e' he'] at hv'
  cases hv'

/-- A task that comes later writes later. -/
theorem not_before_of_last {i j : ι} {u₁ u₂ : List E} (ht : t = u₁ ++ e :: u₂)
    (hn : ∀ e' ∈ u₂, writes e' = none) (hi : owner e = i)
    (hj : ∃ e' ∈ t, owner e' = j ∧ writes e' ≠ none) : ¬ Before owner t i j := by
  rintro ⟨t₁, t₂, hs, h₁, h₂⟩
  obtain ⟨e', he', ho, hw⟩ := hj
  rw [hs] at he'
  have hm : e' ∈ t₂ := by
    rcases List.mem_append.mp he' with hm | hm
    · exact absurd ho (h₁ e' hm)
    · exact hm
  exact h₂ e (last_mem_end (hs.symm.trans ht) hn ⟨e', hm, hw⟩) hi

/-- Tasks that write two registers alike leave them alike, if those that write different values
do not overlap. -/
theorem lastWrite_eq_of_serial (hp : Paired owner value writes writes' t)
    (hp' : Paired owner value writes' writes t)
    (hs : ∀ e ∈ t, ∀ e' ∈ t, ∀ v v', writes e = some v → writes' e' = some v' → v ≠ v' →
      Before owner t (owner e) (owner e') ∨ Before owner t (owner e') (owner e)) :
    lastWrite writes t = lastWrite writes' t := by
  cases h : lastWrite writes t with
  | none => exact (hp'.lastWrite_eq_none h).symm
  | some v =>
    obtain ⟨u₁, e, u₂, ht, hv, hn⟩ := lastWrite_eq_some.mp h
    have he : e ∈ t := by simp [ht]
    obtain ⟨-, e₁, he₁, ho₁, hv₁⟩ := hp e he v hv
    cases h' : lastWrite writes' t with
    | none =>
      rw [lastWrite_eq_none.mp h' e₁ he₁] at hv₁
      cases hv₁
    | some v' =>
      obtain ⟨u₁', e', u₂', ht', hv', hn'⟩ := lastWrite_eq_some.mp h'
      have he' : e' ∈ t := by simp [ht']
      obtain ⟨-, e₂, he₂, ho₂, hv₂⟩ := hp' e' he' v' hv'
      by_contra hne
      have hne' : v ≠ v' := fun h ↦ hne (congrArg some h)
      rcases hs e he e' he' v v' hv hv' hne' with hb | hb
      · exact not_before_of_last ht hn rfl ⟨e₂, he₂, ho₂, by simp [hv₂]⟩ hb
      · exact not_before_of_last ht' hn' rfl ⟨e₁, he₁, ho₁, by simp [hv₁]⟩ hb

end

end NhiSentinel.Base
