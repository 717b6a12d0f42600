import NhiSentinel.Base.Program

/-!
# Two programs side by side

Two programs are in lockstep when they make the same calls as long as they are answered
the same, up to a call of each that may tell them apart. The rules follow the way in which
programs are put together; under one environment, two such programs either run alike or
both get to such a call.
-/

namespace NhiSentinel.Base
namespace Prog

variable {C : Type} {R : C → Type} {α β γ δ : Type} {env : List (Sigma R) → (c : C) → R c}
  {h t u : List (Sigma R)}

/-! ### Replies of an environment -/

/-- The replies are those of an environment that is shown the calls before, after those of `h`. -/
def Answers (env : List (Sigma R) → (c : C) → R c) : List (Sigma R) → List (Sigma R) → Prop
  | _, [] => True
  | h, e :: t => e.2 = env h e.1 ∧ Answers env (h ++ [e]) t

/-- Two traces one after the other are answered if the second is after the first. -/
theorem answers_append :
    Answers env h (t ++ u) ↔ Answers env h t ∧ Answers env (h ++ t) u := by
  induction t generalizing h with
  | nil => simp [Answers]
  | cons e t ih =>
    simp only [List.cons_append, Answers, ih, and_assoc]
    rw [List.append_assoc, List.singleton_append]

/-- An execution is answered by its environment. -/
theorem answers_exec (env : List (Sigma R) → (c : C) → R c) (p : Prog C R α)
    (h : List (Sigma R)) : Answers env h (p.exec env h).1 := by
  induction p generalizing h with
  | done a => trivial
  | call c k ih => exact ⟨rfl, ih _ _⟩

/-- Calls that were made from some point on are answered by what the environment is from there. -/
theorem answers_map {D : Type} {S : D → Type} {f : Sigma R → Sigma S}
    {env : List (Sigma S) → (d : D) → S d} {env' : List (Sigma R) → (c : C) → R c}
    {before : List (Sigma S)}
    (he : ∀ h e, (f e).2 = env (before ++ h.map f) (f e).1 → e.2 = env' h e.1)
    (ha : Answers env (before ++ h.map f) (t.map f)) : Answers env' h t := by
  induction t generalizing h with
  | nil => trivial
  | cons e t ih =>
    obtain ⟨hr, ha⟩ := ha
    refine ⟨he h e hr, ih ?_⟩
    rw [List.map_append, ← List.append_assoc]
    exact ha

/-! ### Lockstep -/

/-- Both programs are done with related results, or make the same call and stay in lockstep on
every reply, or each makes a call that may tell them apart. -/
inductive Lockstep (apart : C → Prop) (Q : α → β → Prop) : Prog C R α → Prog C R β → Prop where
  | done {a : α} {b : β} (hq : Q a b) : Lockstep apart Q (.done a) (.done b)
  | call (c : C) {k : R c → Prog C R α} {k' : R c → Prog C R β}
      (hk : ∀ r, Lockstep apart Q (k r) (k' r)) : Lockstep apart Q (.call c k) (.call c k')
  | apart {c c' : C} (k : R c → Prog C R α) (k' : R c' → Prog C R β) (hc : apart c)
      (hc' : apart c') : Lockstep apart Q (.call c k) (.call c' k')

variable {apart : C → Prop} {Q : α → β → Prop} {Q' : γ → δ → Prop}

/-- Programs in lockstep go on in lockstep. -/
theorem Lockstep.bind {p : Prog C R α} {q : Prog C R β} {f : α → Prog C R γ} {g : β → Prog C R δ}
    (hp : Lockstep apart Q p q) (hf : ∀ a b, Q a b → Lockstep apart Q' (f a) (g b)) :
    Lockstep apart Q' (p.bind f) (q.bind g) := by
  induction hp with
  | done hq => exact hf _ _ hq
  | call c _ ih => exact .call c ih
  | apart k k' hc hc' => exact .apart _ _ hc hc'

/-- Under one environment two programs in lockstep make the same calls to the end, or the same
calls up to one of each that may tell them apart. -/
theorem Lockstep.runs {p : Prog C R α} {q : Prog C R β} {a : α} {b : β}
    (hl : Lockstep apart Q p q) (hp : Run p t a) (hq : Run q u b) (ht : Answers env h t)
    (hu : Answers env h u) :
    t = u ∧ Q a b ∨ (∃ e ∈ t, apart e.1) ∧ ∃ e ∈ u, apart e.1 := by
  induction hl generalizing h t u with
  | done hab =>
    rw [run_done] at hp hq
    obtain ⟨rfl, rfl⟩ := hp
    obtain ⟨rfl, rfl⟩ := hq
    exact .inl ⟨rfl, hab⟩
  | call c _ ih =>
    rw [run_call] at hp hq
    obtain ⟨r, t, rfl, hp⟩ := hp
    obtain ⟨r', u, rfl, hq⟩ := hq
    obtain ⟨hr, ht⟩ := ht
    obtain ⟨hr', hu⟩ := hu
    -- both calls are answered the same
    obtain rfl : r = r' := hr.trans hr'.symm
    rcases ih _ hp hq ht hu with ⟨rfl, hab⟩ | ⟨⟨e, he, hc⟩, e', he', hc'⟩
    · exact .inl ⟨rfl, hab⟩
    · exact .inr ⟨⟨e, List.mem_cons_of_mem _ he, hc⟩, e', List.mem_cons_of_mem _ he', hc'⟩
  | apart k k' hc hc' =>
    rw [run_call] at hp hq
    obtain ⟨r, t, rfl, -⟩ := hp
    obtain ⟨r', u, rfl, -⟩ := hq
    exact .inr ⟨⟨_, List.mem_cons_self, hc⟩, _, List.mem_cons_self, hc'⟩

end Prog

/-! ### Programs with state and exceptions -/

namespace Py

variable {S ε C : Type} {R : C → Type} {α β : Type} {apart : C → Prop} {I : S → S → Prop}

/-- From related states the programs run in lockstep, to the same value or exception and to
related states. -/
def Lockstep (apart : C → Prop) (I : S → S → Prop) (m m' : Py S ε C R α) : Prop :=
  ∀ s s', I s s' → Prog.Lockstep apart (fun x y ↦ x.1 = y.1 ∧ I x.2 y.2) (m s) (m' s')

namespace Lockstep

/-- A value is in lockstep with itself. -/
protected theorem pure (a : α) : Lockstep apart I (pure a : Py S ε C R α) (pure a) :=
  fun _ _ hs ↦ .done ⟨rfl, hs⟩

/-- An exception is in lockstep with itself. -/
theorem raise (e : ε) : Lockstep apart I (raise e : Py S ε C R α) (raise e) :=
  fun _ _ hs ↦ .done ⟨rfl, hs⟩

/-- A result is in lockstep with itself. -/
theorem ofExcept (x : Except ε α) : Lockstep apart I (ofExcept x : Py S ε C R α) (ofExcept x) := by
  cases x with
  | ok a => exact .pure a
  | error e => exact .raise e

/-- A call is in lockstep with itself. -/
theorem ask (c : C) : Lockstep apart I (ask c : Py S ε C R (R c)) (ask c) :=
  fun _ _ hs ↦ .call c fun _ ↦ .done ⟨rfl, hs⟩

/-- Updates that keep the states related are in lockstep. -/
theorem update {f g : S → S} (hf : ∀ s s', I s s' → I (f s) (g s')) :
    Lockstep apart I (update f : Py S ε C R Unit) (update g) :=
  fun s s' hs ↦ .done ⟨rfl, hf s s' hs⟩

/-- Methods in lockstep go on in lockstep. -/
theorem bind {m m' : Py S ε C R α} {f f' : α → Py S ε C R β} (hm : Lockstep apart I m m')
    (hf : ∀ a, Lockstep apart I (f a) (f' a)) : Lockstep apart I (m >>= f) (m' >>= f') := by
  intro s s' hs
  refine (hm s s' hs).bind ?_
  rintro ⟨_ | a, s₁⟩ ⟨_, s₂⟩ ⟨rfl, hs'⟩
  · exact .done ⟨rfl, hs'⟩
  · exact hf a s₁ s₂ hs'

/-- What follows a read may use what is related of the two states. -/
theorem read_bind {f f' : S → Py S ε C R α}
    (hf : ∀ s s', I s s' → Lockstep apart I (f s) (f' s')) :
    Lockstep apart I (read >>= f) (read >>= f') :=
  fun s s' hs ↦ hf s s' hs s s' hs

/-- Methods in lockstep are in lockstep with their handlers, if these are. -/
theorem handle {m m' : Py S ε C R α} {f f' : ε → Py S ε C R α} (hm : Lockstep apart I m m')
    (hf : ∀ e, Lockstep apart I (f e) (f' e)) :
    Lockstep apart I (handle m f) (handle m' f') := by
  intro s s' hs
  refine (hm s s' hs).bind ?_
  rintro ⟨e | a, s₁⟩ ⟨_, s₂⟩ ⟨rfl, hs'⟩
  · exact hf e s₁ s₂ hs'
  · exact .done ⟨rfl, hs'⟩

/-- A branch on a condition of both programs. -/
theorem ite {c : Prop} [Decidable c] {m m' n n' : Py S ε C R α} (hm : Lockstep apart I m m')
    (hn : Lockstep apart I n n') :
    Lockstep apart I (if c then m else n) (if c then m' else n') := by
  split
  · exact hm
  · exact hn

/-- Calls that may tell the programs apart need not be the same. -/
theorem of_apart {c c' : C} {f : R c → Py S ε C R α} {f' : R c' → Py S ε C R α} (hc : apart c)
    (hc' : apart c') : Lockstep apart I (Py.ask c >>= f) (Py.ask c' >>= f') :=
  fun _ _ _ ↦ .apart _ _ hc hc'

end Lockstep
end Py
end NhiSentinel.Base
