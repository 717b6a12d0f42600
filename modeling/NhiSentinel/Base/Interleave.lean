import Mathlib.Data.List.Induction
import Mathlib.Logic.Function.Basic
import NhiSentinel.Base.Program

/-!
# Interleaved programs

A family of programs in one world. A step takes the next call of one program and answers
it from the world, or changes the world in the background; the trace keeps every call
with the program that made it.
-/

namespace NhiSentinel.Base

/-- How a world answers the calls of the programs, and how it changes by itself. -/
structure World (ι : Type) (C : Type) (R : C → Type) (σ : Type) where
  answer : σ → ι → (c : C) → R c → σ → Prop
  background : σ → σ → Prop

section
variable {ι C σ α : Type} {R : C → Type} [DecidableEq ι]

/-- The calls that one program has made. -/
def eventsOf (i : ι) (t : List (ι × Sigma R)) : List (Sigma R) :=
  (t.filter fun e ↦ e.1 = i).map Prod.snd

/-- The events of a party in two traces, one after the other. -/
@[simp] theorem eventsOf_append (i : ι) (t u : List (ι × Sigma R)) :
    eventsOf i (t ++ u) = eventsOf i t ++ eventsOf i u := by
  simp [eventsOf]

/-- An event of the party. -/
@[simp] theorem eventsOf_singleton_self (i : ι) (e : Sigma R) :
    eventsOf i [(i, e)] = [e] := by
  simp [eventsOf]

/-- An event of another party. -/
theorem eventsOf_singleton_of_ne {i j : ι} (h : j ≠ i) (e : Sigma R) :
    eventsOf i [(j, e)] = [] := by
  simp [eventsOf, h]

/-- The events of a party are those in the trace under its name. -/
theorem mem_eventsOf {i : ι} {e : Sigma R} {t : List (ι × Sigma R)} :
    e ∈ eventsOf i t ↔ (i, e) ∈ t := by
  simp [eventsOf]

/-- A call of one program among its others has its place in the trace. -/
theorem exists_split_eventsOf {i : ι} {e : Sigma R} {t : List (ι × Sigma R)}
    {l₁ l₂ : List (Sigma R)} (h : eventsOf i t = l₁ ++ e :: l₂) :
    ∃ u v, t = u ++ (i, e) :: v ∧ eventsOf i u = l₁ ∧ eventsOf i v = l₂ := by
  induction t generalizing l₁ with
  | nil => simp [eventsOf] at h
  | cons d t ih =>
    obtain ⟨j, d⟩ := d
    rw [← List.singleton_append, eventsOf_append] at h
    by_cases hj : j = i
    · subst hj
      rw [eventsOf_singleton_self, List.singleton_append] at h
      cases l₁ with
      | nil =>
        obtain ⟨rfl, rfl⟩ := List.cons.inj h
        exact ⟨[], t, rfl, rfl, rfl⟩
      | cons a l₁ =>
        obtain ⟨rfl, hr⟩ := List.cons.inj h
        obtain ⟨u, v, rfl, rfl, rfl⟩ := ih hr
        refine ⟨(j, d) :: u, v, rfl, ?_, rfl⟩
        rw [← List.singleton_append, eventsOf_append, eventsOf_singleton_self]
        rfl
    · rw [eventsOf_singleton_of_ne hj, List.nil_append] at h
      obtain ⟨u, v, rfl, rfl, rfl⟩ := ih h
      refine ⟨(j, d) :: u, v, rfl, ?_, rfl⟩
      rw [← List.singleton_append, eventsOf_append, eventsOf_singleton_of_ne hj, List.nil_append]

/-- The traces, programs and worlds that an interleaving reaches. -/
inductive Reach (world : World ι C R σ) (p₀ : ι → Prog C R α) (w₀ : σ) :
    List (ι × Sigma R) → (ι → Prog C R α) → σ → Prop where
  | start : Reach world p₀ w₀ [] p₀ w₀
  | call {t : List (ι × Sigma R)} {p : ι → Prog C R α} {w w' : σ}
      (h : Reach world p₀ w₀ t p w) (i : ι) {c : C} {k : R c → Prog C R α}
      (hp : p i = .call c k) (r : R c) (ha : world.answer w i c r w') :
      Reach world p₀ w₀ (t ++ [(i, ⟨c, r⟩)]) (Function.update p i (k r)) w'
  | background {t : List (ι × Sigma R)} {p : ι → Prog C R α} {w w' : σ}
      (h : Reach world p₀ w₀ t p w) (hb : world.background w w') : Reach world p₀ w₀ t p w'

namespace Reach

variable {world : World ι C R σ} {p₀ p : ι → Prog C R α} {w₀ w : σ} {t : List (ι × Sigma R)}

/-- Seen from one program, an interleaving is a run of it. -/
theorem steps (h : Reach world p₀ w₀ t p w) (i : ι) :
    Prog.Steps (p₀ i) (eventsOf i t) (p i) := by
  induction h with
  | start => exact .refl _
  | @call t p w w' h j c k hp r ha ih =>
    rw [eventsOf_append]
    by_cases hj : j = i
    · subst hj
      rw [eventsOf_singleton_self, Function.update_self]
      rw [hp] at ih
      exact ih.trans (.call r (.refl _))
    · rw [eventsOf_singleton_of_ne hj, List.append_nil, Function.update_of_ne (Ne.symm hj)]
      exact ih
  | background h hb ih => exact ih

/-- One program goes on against a world that stays as it is. -/
theorem go_on (h : Reach world p₀ w₀ t p w) (i : ι) {u : List (Sigma R)} {q : Prog C R α}
    (hs : Prog.Steps (p i) u q) (ha : ∀ e ∈ u, world.answer w i e.1 e.2 w) :
    Reach world p₀ w₀ (t ++ u.map fun e ↦ (i, e)) (Function.update p i q) w := by
  generalize hp : p i = r at hs
  induction hs generalizing t p with
  | refl r =>
    rw [List.map_nil, List.append_nil, ← hp, Function.update_eq_self]
    exact h
  | @call c k reply u q hs ih =>
    have h' := h.call i hp reply (ha _ List.mem_cons_self)
    have hr := ih h' (fun e he ↦ ha e (List.mem_cons_of_mem _ he)) (Function.update_self ..)
    rw [List.append_assoc, Function.update_idem] at hr
    exact hr

/-- The world answers calls of one program, one after the other. -/
inductive Serves (world : World ι C R σ) (i : ι) : σ → List (Sigma R) → σ → Prop where
  | nil (w : σ) : Serves world i w [] w
  | cons {w w₁ w' : σ} {e : Sigma R} {u : List (Sigma R)} (ha : world.answer w i e.1 e.2 w₁)
      (h : Serves world i w₁ u w') : Serves world i w (e :: u) w'

/-- One program goes on as the world serves it. -/
theorem serve (h : Reach world p₀ w₀ t p w) (i : ι) {u : List (Sigma R)} {q : Prog C R α} {w' : σ}
    (hs : Prog.Steps (p i) u q) (ha : Serves world i w u w') :
    Reach world p₀ w₀ (t ++ u.map fun e ↦ (i, e)) (Function.update p i q) w' := by
  generalize hp : p i = r at hs
  induction hs generalizing t p w with
  | refl r =>
    cases ha
    rw [List.map_nil, List.append_nil, ← hp, Function.update_eq_self]
    exact h
  | @call c k reply u q hs ih =>
    cases ha with
    | cons ha hu =>
      have hr := ih (h.call i hp reply ha) hu (Function.update_self ..)
      rw [List.append_assoc, Function.update_idem] at hr
      exact hr

/-- An invariant of traces and worlds. A call that is to be answered is the next one of the
program that made the calls before it. -/
theorem invariant {I : List (ι × Sigma R) → σ → Prop} (start : I [] w₀)
    (call : ∀ {t w w'} i {c : C} (k : R c → Prog C R α) r,
      Prog.Steps (p₀ i) (eventsOf i t) (.call c k) → I t w → world.answer w i c r w' →
        I (t ++ [(i, ⟨c, r⟩)]) w')
    (background : ∀ {t w w'}, I t w → world.background w w' → I t w')
    (h : Reach world p₀ w₀ t p w) : I t w := by
  induction h with
  | start => exact start
  | @call t p w w' h i c k hp r ha ih => exact call i k r (hp ▸ h.steps i) ih ha
  | background h hb ih => exact background ih hb

/-- Every call of a trace was the next one of its program, and was answered then. -/
theorem answered (h : Reach world p₀ w₀ t p w) {before after : List (ι × Sigma R)}
    {e : ι × Sigma R} (ht : t = before ++ e :: after) :
    ∃ p' k w₁ w₂, Reach world p₀ w₀ before p' w₁ ∧ p' e.1 = .call e.2.1 k ∧
      world.answer w₁ e.1 e.2.1 e.2.2 w₂ := by
  induction h generalizing after with
  | start => simp at ht
  | @call t p w w' h i c k hp r ha ih =>
    induction after using List.reverseRecOn with
    | nil =>
      obtain ⟨rfl, he⟩ := List.append_inj' ht rfl
      cases he
      exact ⟨p, k, w, w', h, hp, ha⟩
    | append_singleton after last _ =>
      rw [← List.cons_append, ← List.append_assoc] at ht
      exact ih (List.append_inj' ht rfl).1
  | background _ _ ih => exact ih ht

/-- What a call brings about lasts until a call that ends it. -/
theorem since {P : σ → Prop} {E : ι × Sigma R → Prop} {before after : List (ι × Sigma R)}
    {e : ι × Sigma R} (h : Reach world p₀ w₀ t p w) (ht : t = before ++ e :: after)
    (hn : ∀ d ∈ after, ¬ E d)
    (bring : ∀ {p w w' k}, Reach world p₀ w₀ before p w → p e.1 = .call e.2.1 k →
      world.answer w e.1 e.2.1 e.2.2 w' → P w')
    (keep : ∀ {t p w w' d k}, Reach world p₀ w₀ t p w → p d.1 = .call d.2.1 k →
      world.answer w d.1 d.2.1 d.2.2 w' → ¬ E d → P w → P w')
    (background : ∀ {w w'}, world.background w w' → P w → P w') : P w := by
  induction h generalizing after with
  | start => simp at ht
  | @call t p w w' h i c k hp r ha ih =>
    induction after using List.reverseRecOn with
    | nil =>
      obtain ⟨rfl, he⟩ := List.append_inj' ht rfl
      cases he
      exact bring h hp ha
    | append_singleton after last _ =>
      rw [← List.cons_append, ← List.append_assoc] at ht
      obtain ⟨rfl, he⟩ := List.append_inj' ht rfl
      cases he
      have hlast := hn (i, ⟨c, r⟩) (List.mem_append_right _ (List.mem_singleton_self _))
      have hP := ih rfl fun d hd ↦ hn d (List.mem_append_left _ hd)
      exact keep (d := (i, ⟨c, r⟩)) h hp ha hlast hP
  | background _ hb ih => exact background hb (ih ht hn)

/-- A program makes its next call; the others stay as they are. -/
theorem exists_call (h : Reach world p₀ w₀ t p w) {i : ι} {e : Sigma R} {q : Prog C R α}
    (hk : ∃ k, p i = .call e.1 k ∧ k e.2 = q) {w' : σ} (ha : world.answer w i e.1 e.2 w') :
    ∃ p', Reach world p₀ w₀ (t ++ [(i, e)]) p' w' ∧ p' i = q ∧ ∀ j, j ≠ i → p' j = p j := by
  obtain ⟨k, hp, hq⟩ := hk
  refine ⟨_, h.call i hp e.2 ha, ?_, fun j hj ↦ Function.update_of_ne hj ..⟩
  rw [Function.update_self]
  exact hq

/-- A program runs to its end while the world, which is seen of a server, answers it like that
server. The others stay as they are. -/
theorem exists_serve {C' β τ : Type} {R' : C' → Type} {call' : C' → C}
    {reply : (c : C') → R (call' c) → R' c} (server : τ → (c : C') → R' c × τ) (view : τ → σ)
    {i : ι} (ha : ∀ x c, ∃ r, reply c r = (server x c).1 ∧
      world.answer (view x) i (call' c) r (view (server x c).2))
    (m : Prog C' R' β) {f : β → α} {x : τ} (h : Reach world p₀ w₀ t p (view x))
    (hp : p i = (m.embed call' reply).bind fun b ↦ .done (f b)) :
    ∃ u p', Reach world p₀ w₀ (t ++ u) p' (view (m.serve server x).2) ∧
      p' i = .done (f (m.serve server x).1) ∧ (∀ e ∈ u, e.1 = i) ∧ ∀ j, j ≠ i → p' j = p j := by
  induction m generalizing t p x with
  | done b => exact ⟨[], p, by rwa [List.append_nil], hp, List.forall_mem_nil _, fun _ _ ↦ rfl⟩
  | call c k ih =>
    obtain ⟨r, hr, hw⟩ := ha x c
    obtain ⟨p₁, h₁, hi₁, ho₁⟩ := h.exists_call (e := ⟨call' c, r⟩)
      (q := ((k (server x c).1).embed call' reply).bind fun b ↦ .done (f b))
      ⟨_, hp, by rw [← hr]⟩ hw
    obtain ⟨u, p₂, h₂, hi₂, hu, ho₂⟩ := ih _ h₁ hi₁
    refine ⟨(i, ⟨call' c, r⟩) :: u, p₂, ?_, hi₂, ?_, fun j hj ↦ (ho₂ j hj).trans (ho₁ j hj)⟩
    · rwa [List.append_assoc, List.singleton_append] at h₂
    · exact List.forall_mem_cons.mpr ⟨rfl, hu⟩

/-- The control points of programs: what each is left with at a point, and how a call moves it
to another. -/
structure Control (ι : Type) (C : Type) (R : C → Type) (α : Type) where
  Point : ι → Type
  start : ∀ i, Point i
  program : ∀ i, Point i → Prog C R α
  Moves : ∀ i, Point i → Sigma R → Point i → Prop
  step : ∀ i {φ : Point i} {c : C} {k : R c → Prog C R α}, program i φ = .call c k →
    ∀ r, ∃ φ', k r = program i φ' ∧ Moves i φ ⟨c, r⟩ φ'

/-- An invariant of control points, traces and worlds. -/
theorem controlled (P : Control ι C R α) (hp₀ : ∀ i, p₀ i = P.program i (P.start i))
    {I : (∀ i, P.Point i) → List (ι × Sigma R) → σ → Prop} (start : I P.start [] w₀)
    (call : ∀ {φ t w w'} i {e : Sigma R} {φ'}, I φ t w → P.Moves i (φ i) e φ' →
      world.answer w i e.1 e.2 w' → I (Function.update φ i φ') (t ++ [(i, e)]) w')
    (background : ∀ {φ t w w'}, I φ t w → world.background w w' → I φ t w')
    (h : Reach world p₀ w₀ t p w) : ∃ φ, (∀ i, p i = P.program i (φ i)) ∧ I φ t w := by
  induction h with
  | start => exact ⟨P.start, hp₀, start⟩
  | @call t p w w' h i c k hp r ha ih =>
    obtain ⟨φ, hφ, hI⟩ := ih
    obtain ⟨φ', hk, hm⟩ := P.step i ((hφ i).symm.trans hp) r
    refine ⟨Function.update φ i φ', fun j ↦ ?_, call i hI hm ha⟩
    by_cases hj : j = i
    · subst hj
      rw [Function.update_self, Function.update_self]
      exact hk
    · rw [Function.update_of_ne hj, Function.update_of_ne hj]
      exact hφ j
  | background h hb ih =>
    obtain ⟨φ, hφ, hI⟩ := ih
    exact ⟨φ, hφ, background hI hb⟩

end Reach
end

end NhiSentinel.Base
