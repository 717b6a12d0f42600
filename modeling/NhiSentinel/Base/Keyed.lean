import Mathlib.Algebra.Group.Defs
import Mathlib.Algebra.Group.Basic
import Mathlib.Data.List.Basic

/-!
# Machines that serve many keys

A machine whose events each belong to a key: what it holds for a key changes by the events
of that key alone, and what it holds for all of them is a sum. The part of a key is then a
function of its own events, and events of different keys commute.
-/

namespace NhiSentinel.Base

/-- A machine with states `σ` and events `ε`: the part `ν` of a key, and a total `μ`. -/
structure Keyed (σ ε κ ν μ : Type) [DecidableEq κ] [AddCommMonoid μ] where
  step : σ → ε → σ
  key : ε → κ
  part : σ → κ → ν
  total : σ → μ
  /-- What an event of its key does to a part. -/
  own : ν → ε → ν
  /-- What an event adds to the total, seen from the part of its key. -/
  amount : ν → ε → μ
  part_step : ∀ s e k, part (step s e) k = if key e = k then own (part s k) e else part s k
  total_step : ∀ s e, total (step s e) = total s + amount (part s (key e)) e

namespace Keyed

variable {σ ε κ ν μ : Type} [DecidableEq κ] [AddCommMonoid μ] (m : Keyed σ ε κ ν μ)

/-- The state after a stream of events. -/
def run (s : σ) (es : List ε) : σ := es.foldl m.step s

/-- The events of a key. -/
def ofKey (k : κ) (es : List ε) : List ε := es.filter (m.key · = k)

/-- Two states are the same to every key and in total. -/
structure Same (s s' : σ) : Prop where
  part : ∀ k, m.part s k = m.part s' k
  total : m.total s = m.total s'

/-- An event moves the part of its own key. -/
theorem part_step_self {e : ε} {k : κ} (h : m.key e = k) (s : σ) :
    m.part (m.step s e) k = m.own (m.part s k) e := by rw [m.part_step, if_pos h]

/-- An event leaves the parts of other keys alone. -/
theorem part_step_ne {e : ε} {k : κ} (h : m.key e ≠ k) (s : σ) :
    m.part (m.step s e) k = m.part s k := by rw [m.part_step, if_neg h]

/-- The part of a key is determined by the events of that key. -/
theorem part_run (s : σ) (es : List ε) (k : κ) :
    m.part (m.run s es) k = (m.ofKey k es).foldl m.own (m.part s k) := by
  induction es generalizing s with
  | nil => rfl
  | cons e es ih =>
    rw [run, List.foldl_cons, ← run, ih, ofKey, ofKey, List.filter_cons]
    by_cases h : m.key e = k
    · simp [h, m.part_step_self h]
    · simp [h, m.part_step_ne h]

/-- A key sees the same after all events as after its own. -/
theorem part_run_ofKey (s : σ) (es : List ε) (k : κ) :
    m.part (m.run s (m.ofKey k es)) k = m.part (m.run s es) k := by
  rw [part_run, part_run, ofKey, ofKey, List.filter_filter]
  simp

/-- States with the same parts have the same parts after an event. -/
theorem Same.step {s s' : σ} (h : m.Same s s') (e : ε) : m.Same (m.step s e) (m.step s' e) := by
  constructor
  · intro k
    rw [m.part_step, m.part_step, h.part]
  · rw [m.total_step, m.total_step, h.part, h.total]

/-- States with the same parts have the same parts after a run. -/
theorem Same.run {s s' : σ} (h : m.Same s s') (es : List ε) :
    m.Same (m.run s es) (m.run s' es) := by
  induction es generalizing s s' with
  | nil => exact h
  | cons e es ih => exact ih (h.step m e)

/-- Two events of different keys commute. -/
theorem same_swap {e e' : ε} (h : m.key e ≠ m.key e') (s : σ) :
    m.Same (m.step (m.step s e) e') (m.step (m.step s e') e) := by
  constructor
  · intro k
    by_cases hk : m.key e = k
    · have hk' : m.key e' ≠ k := fun hn ↦ h (hk.trans hn.symm)
      rw [m.part_step_ne hk', m.part_step_self hk, m.part_step_self hk, m.part_step_ne hk']
    · by_cases hk' : m.key e' = k
      · rw [m.part_step_self hk', m.part_step_ne hk, m.part_step_ne hk, m.part_step_self hk']
      · rw [m.part_step_ne hk', m.part_step_ne hk, m.part_step_ne hk, m.part_step_ne hk']
  · rw [m.total_step, m.total_step, m.total_step, m.total_step, m.part_step_ne h,
      m.part_step_ne h.symm, add_right_comm]

/-- Two events of different keys commute wherever they stand in a stream. -/
theorem same_run_swap {e e' : ε} (h : m.key e ≠ m.key e') (s : σ) (before after : List ε) :
    m.Same (m.run s (before ++ e :: e' :: after)) (m.run s (before ++ e' :: e :: after)) := by
  rw [run, run, List.foldl_append, List.foldl_append]
  exact (m.same_swap h _).run m after

end Keyed
end NhiSentinel.Base
