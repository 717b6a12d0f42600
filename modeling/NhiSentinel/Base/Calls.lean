import NhiSentinel.Base.Program

/-!
# What a program calls

A condition on the calls of a program that holds whatever they are answered, with a rule for
each way to build a program.
-/

namespace NhiSentinel.Base

namespace Prog

variable {C D : Type} {R : C → Type} {S : D → Type} {α β : Type}

/-- Every call of the program satisfies the condition. -/
def Calls (P : C → Prop) : Prog C R α → Prop
  | done _ => True
  | call c k => P c ∧ ∀ r, (k r).Calls P

section
variable {P : C → Prop} {p : Prog C R α}

/-- Every call of a run satisfies what all calls satisfy. -/
theorem Calls.of_run (h : p.Calls P) {t : List (Sigma R)} {a : α} (hr : Run p t a) :
    ∀ e ∈ t, P e.1 := by
  induction p generalizing t with
  | done b =>
    obtain ⟨rfl, -⟩ := run_done.mp hr
    exact nofun
  | call c k ih =>
    obtain ⟨r, t', rfl, hk⟩ := run_call.mp hr
    intro e he
    rcases List.mem_cons.mp he with rfl | he
    · exact h.1
    · exact ih r (h.2 r) hk e he

/-- What is left of a program after some of its calls. -/
theorem Calls.of_steps (h : p.Calls P) {t : List (Sigma R)} {q : Prog C R α}
    (hs : Steps p t q) : q.Calls P := by
  induction hs with
  | refl p => exact h
  | call r _ ih => exact ih (h.2 r)

/-- A condition on the calls of all runs, where every call can be answered. -/
theorem calls_of_runs (reply : ∀ c, R c) (h : ∀ t a, Run p t a → ∀ e ∈ t, P e.1) : p.Calls P := by
  induction p with
  | done b => trivial
  | call c k ih =>
    have hk (r : R c) (t : List (Sigma R)) (a : α) (hr : Run (k r) t a) :
        ∀ e ∈ ⟨c, r⟩ :: t, P e.1 := h _ a (run_call.mpr ⟨r, t, rfl, hr⟩)
    refine ⟨?_, fun r ↦ ih r fun t a hr e he ↦ hk r t a hr e (List.mem_cons_of_mem _ he)⟩
    obtain ⟨t, a, hr, -⟩ := exists_run reply (k (reply c))
    exact hk _ t a hr _ List.mem_cons_self

/-- What the calls satisfy may be weakened. -/
theorem Calls.mono (h : p.Calls P) {Q : C → Prop} (hq : ∀ c, P c → Q c) : p.Calls Q := by
  induction p with
  | done b => trivial
  | call c k ih => exact ⟨hq c h.1, fun r ↦ ih r (h.2 r)⟩

/-- What follows need satisfy the condition only on the results of complete runs. -/
theorem Calls.bind (h : p.Calls P) {f : α → Prog C R β}
    (hf : ∀ t a, Run p t a → (f a).Calls P) : (p.bind f).Calls P := by
  induction p with
  | done b => exact hf [] b (Steps.refl _)
  | call c k ih =>
    refine ⟨h.1, fun r ↦ ih r (h.2 r) fun t a hr ↦ ?_⟩
    exact hf _ a (run_call.mpr ⟨r, t, rfl, hr⟩)

/-- A program over a part of the calls. -/
theorem Calls.embed (call' : C → D) (reply : ∀ c, S (call' c) → R c) {Q : D → Prop}
    (h : p.Calls fun c ↦ Q (call' c)) : (p.embed call' reply).Calls Q := by
  induction p with
  | done b => trivial
  | call c k ih => exact ⟨h.1, fun r ↦ ih _ (h.2 _)⟩

end
end Prog

namespace Py

variable {S ε C : Type} {R : C → Type} {α β : Type}

/-- Every call of the program from a state satisfies the condition. -/
def Calls (P : C → Prop) (m : Py S ε C R α) (s : S) : Prop := (m s).Calls P

variable {P : C → Prop} {s : S}

/-- Every call of a run of a method satisfies what all its calls satisfy. -/
theorem Calls.of_run {m : Py S ε C R α} (h : m.Calls P s) {t : List (Sigma R)}
    {out : Except ε α} {s' : S} (hr : Run m s t out s') : ∀ e ∈ t, P e.1 :=
  Prog.Calls.of_run h hr

/-- A value asks nothing. -/
@[simp] theorem calls_pure (a : α) : (pure a : Py S ε C R α).Calls P s := trivial

/-- An exception asks nothing. -/
@[simp] theorem calls_raise (e : ε) : (raise e : Py S ε C R α).Calls P s := trivial

/-- A call asks what it asks. -/
@[simp] theorem calls_ask {c : C} : (ask c : Py S ε C R (R c)).Calls P s ↔ P c :=
  and_iff_left fun _ ↦ trivial

/-- A result asks nothing. -/
@[simp] theorem calls_ofExcept (x : Except ε α) : (ofExcept x : Py S ε C R α).Calls P s := by
  cases x <;> trivial

/-- The calls after a value are those of what goes on with it. -/
@[simp] theorem calls_pure_bind {a : α} {f : α → Py S ε C R β} :
    (pure a >>= f : Py S ε C R β).Calls P s ↔ (f a).Calls P s := Iff.rfl

/-- Nothing is asked after an exception. -/
@[simp] theorem calls_raise_bind {e : ε} {f : α → Py S ε C R β} :
    (raise e >>= f : Py S ε C R β).Calls P s := trivial

/-- The calls after the state is read. -/
@[simp] theorem calls_read_bind {f : S → Py S ε C R β} :
    (read >>= f : Py S ε C R β).Calls P s ↔ (f s).Calls P s := Iff.rfl

/-- A call comes before those that go on with any of its replies. -/
@[simp] theorem calls_ask_bind {c : C} {f : R c → Py S ε C R β} :
    (ask c >>= f : Py S ε C R β).Calls P s ↔ P c ∧ ∀ r, (f r).Calls P s := Iff.rfl

/-- The calls after a result are those of what goes on with its value. -/
@[simp] theorem calls_ofExcept_bind {x : Except ε α} {f : α → Py S ε C R β} :
    (ofExcept x >>= f : Py S ε C R β).Calls P s ↔ ∀ a, x = .ok a → (f a).Calls P s := by
  cases x with
  | ok a =>
    refine ⟨fun h b hb ↦ ?_, fun h ↦ h a rfl⟩
    cases hb
    exact h
  | error e =>
    refine ⟨fun _ b hb ↦ ?_, fun _ ↦ trivial⟩
    cases hb

/-- What follows need satisfy the condition only where the first part returned. -/
theorem Calls.bind {m : Py S ε C R α} (h : m.Calls P s) {f : α → Py S ε C R β}
    (hf : ∀ t a s', Run m s t (.ok a) s' → (f a).Calls P s') : (m >>= f).Calls P s := by
  refine Prog.Calls.bind h fun t a hr ↦ ?_
  obtain ⟨out, s'⟩ := a
  cases out with
  | ok a => exact hf t a s' hr
  | error e => trivial

/-- A guarded program, with the handler of its exceptions. -/
theorem Calls.handle {m : Py S ε C R α} (h : m.Calls P s) {f : ε → Py S ε C R α}
    (hf : ∀ t e s', Run m s t (.error e) s' → (f e).Calls P s') : (handle m f).Calls P s := by
  refine Prog.Calls.bind h fun t a hr ↦ ?_
  obtain ⟨out, s'⟩ := a
  cases out with
  | ok a => trivial
  | error e => exact hf t e s' hr

end Py
end NhiSentinel.Base
