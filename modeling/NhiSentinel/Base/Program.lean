import Mathlib.Data.List.Basic

/-!
# Programs that call their environment

A program is a tree: it is done, or it makes a call and continues with the reply. What
the environment answers is not part of the program; a run records the calls together
with their replies, and a property of all runs is one under every behaviour of the
environment.
-/

namespace NhiSentinel.Base

/-- A program over calls `C` with replies `R`. -/
inductive Prog (C : Type) (R : C → Type) (α : Type) where
  | done (a : α)
  | call (c : C) (k : R c → Prog C R α)

namespace Prog

variable {C : Type} {R : C → Type} {α β : Type}

/-- Sequencing: the second program runs on the result of the first. -/
def bind : Prog C R α → (α → Prog C R β) → Prog C R β
  | done a, f => f a
  | call c k, f => call c fun r ↦ (k r).bind f

instance : Monad (Prog C R) where
  pure := done
  bind := bind

/-- A single call. -/
def ask (c : C) : Prog C R (R c) := call c done

/-- A value is a program that has ended. -/
@[simp] theorem pure_eq (a : α) : (pure a : Prog C R α) = done a := rfl

/-- The bind of the monad is that of programs. -/
@[simp] theorem bind_eq (p : Prog C R α) (f : α → Prog C R β) : p >>= f = p.bind f := rfl

/-- A program that has ended goes on with its value. -/
@[simp] theorem done_bind (a : α) (f : α → Prog C R β) : (done a).bind f = f a := rfl

/-- A program that calls goes on after its reply. -/
@[simp] theorem call_bind (c : C) (k : R c → Prog C R α) (f : α → Prog C R β) :
    (call c k).bind f = call c fun r ↦ (k r).bind f := rfl

/-- Programs are put together in either order. -/
theorem bind_assoc {γ : Type} (p : Prog C R α) (f : α → Prog C R β) (g : β → Prog C R γ) :
    (p.bind f).bind g = p.bind fun a ↦ (f a).bind g := by
  induction p with
  | done a => rfl
  | call c k ih =>
    simp only [call_bind]
    exact congrArg _ (funext ih)

/-- Ending with the value changes nothing. -/
theorem bind_done (p : Prog C R α) : p.bind done = p := by
  induction p with
  | done a => rfl
  | call c k ih =>
    rw [call_bind]
    exact congrArg _ (funext ih)

/-! ### Runs -/

/-- The calls of `t` with their replies lead from one program to what is left of it. -/
inductive Steps : Prog C R α → List (Sigma R) → Prog C R α → Prop where
  | refl (p : Prog C R α) : Steps p [] p
  | call {c : C} {k : R c → Prog C R α} (r : R c) {t : List (Sigma R)} {p : Prog C R α}
      (h : Steps (k r) t p) : Steps (call c k) (⟨c, r⟩ :: t) p

/-- A complete run with its result. -/
def Run (p : Prog C R α) (t : List (Sigma R)) (a : α) : Prop := Steps p t (done a)

/-- A program that has ended runs no further. -/
@[simp] theorem run_done {a b : α} {t : List (Sigma R)} :
    Run (done a) t b ↔ t = [] ∧ b = a := by
  constructor
  · rintro ⟨⟩
    exact ⟨rfl, rfl⟩
  · rintro ⟨rfl, rfl⟩
    exact Steps.refl _

/-- A program that calls gets a reply and runs on. -/
@[simp] theorem run_call {c : C} {k : R c → Prog C R α} {t : List (Sigma R)} {a : α} :
    Run (call c k) t a ↔ ∃ r t', t = ⟨c, r⟩ :: t' ∧ Run (k r) t' a := by
  constructor
  · rintro (_ | ⟨r, h⟩)
    exact ⟨r, _, rfl, h⟩
  · rintro ⟨r, t', rfl, h⟩
    exact Steps.call r h

/-- A run of a sequence is a run of its first part followed by a run of its second. -/
theorem run_bind {p : Prog C R α} {f : α → Prog C R β} {t : List (Sigma R)} {b : β} :
    Run (p.bind f) t b ↔ ∃ t₁ a t₂, t = t₁ ++ t₂ ∧ Run p t₁ a ∧ Run (f a) t₂ b := by
  induction p generalizing t with
  | done a =>
    simp only [done_bind, run_done]
    constructor
    · intro h
      exact ⟨[], a, t, rfl, ⟨rfl, rfl⟩, h⟩
    · rintro ⟨t₁, a', t₂, rfl, ⟨rfl, rfl⟩, h⟩
      exact h
  | call c k ih =>
    simp only [call_bind, run_call, ih]
    constructor
    · rintro ⟨r, t', rfl, t₁, a, t₂, rfl, h₁, h₂⟩
      exact ⟨⟨c, r⟩ :: t₁, a, t₂, rfl, ⟨r, t₁, rfl, h₁⟩, h₂⟩
    · rintro ⟨t₁, a, t₂, rfl, ⟨r, t', rfl, h₁⟩, h₂⟩
      exact ⟨r, t' ++ t₂, rfl, t', a, t₂, rfl, h₁, h₂⟩

/-- The replies determine the result. -/
theorem Run.unique {p : Prog C R α} {t : List (Sigma R)} {a b : α} (h : Run p t a)
    (h' : Run p t b) : a = b := by
  induction p generalizing t with
  | done c =>
    rw [run_done] at h h'
    rw [h.2, h'.2]
  | call c k ih =>
    rw [run_call] at h h'
    obtain ⟨r, t₁, rfl, h⟩ := h
    obtain ⟨r', t₂, he, h'⟩ := h'
    cases he
    exact ih r h h'

/-- Steps in sequence. -/
theorem Steps.trans {p q s : Prog C R α} {t u : List (Sigma R)} (h : Steps p t q)
    (h' : Steps q u s) : Steps p (t ++ u) s := by
  induction h with
  | refl p => exact h'
  | call r _ ih => exact Steps.call r (ih h')

/-- Every program comes to an end, whatever it is answered. -/
theorem exists_run (reply : ∀ c, R c) (p : Prog C R α) :
    ∃ t a, Run p t a ∧ ∀ e ∈ t, e.2 = reply e.1 := by
  induction p with
  | done a => exact ⟨[], a, Steps.refl _, by simp⟩
  | call c k ih =>
    obtain ⟨t, a, h, hr⟩ := ih (reply c)
    exact ⟨⟨c, reply c⟩ :: t, a, Steps.call _ h, by simpa using hr⟩

/-- An unfinished run can be finished with prescribed replies. -/
theorem Steps.exists_run (reply : ∀ c, R c) {p q : Prog C R α} {t : List (Sigma R)}
    (h : Steps p t q) : ∃ u a, Run p (t ++ u) a ∧ ∀ e ∈ u, e.2 = reply e.1 := by
  obtain ⟨u, a, hu, hr⟩ := Prog.exists_run reply q
  exact ⟨u, a, h.trans hu, hr⟩

/-- The run under an environment whose replies may depend on all calls before. -/
def exec (env : List (Sigma R) → (c : C) → R c) : Prog C R α → List (Sigma R) → List (Sigma R) × α
  | done a, _ => ([], a)
  | call c k, h =>
    let rest := (k (env h c)).exec env (h ++ [⟨c, env h c⟩])
    (⟨c, env h c⟩ :: rest.1, rest.2)

/-- Execution gives a run. -/
theorem run_exec (env : List (Sigma R) → (c : C) → R c) (p : Prog C R α) (h : List (Sigma R)) :
    Run p (p.exec env h).1 (p.exec env h).2 := by
  induction p generalizing h with
  | done a => exact Steps.refl _
  | call c k ih => exact Steps.call _ (ih _ _)

/-- The first calls on fixed replies, and what is left of the program. -/
def play (reply : ∀ c, R c) : Nat → Prog C R α → List (Sigma R) × Prog C R α
  | 0, p => ([], p)
  | _ + 1, done a => ([], done a)
  | n + 1, call c k =>
    let rest := (k (reply c)).play reply n
    (⟨c, reply c⟩ :: rest.1, rest.2)

/-- Playing takes steps of the program, on the given replies. -/
theorem steps_play (reply : ∀ c, R c) (n : Nat) (p : Prog C R α) :
    Steps p (p.play reply n).1 (p.play reply n).2 ∧
      ∀ e ∈ (p.play reply n).1, e.2 = reply e.1 := by
  induction n generalizing p with
  | zero => exact ⟨.refl p, nofun⟩
  | succ n ih =>
    cases p with
    | done a => exact ⟨.refl _, nofun⟩
    | call c k =>
      obtain ⟨hs, hr⟩ := ih (k (reply c))
      refine ⟨.call _ hs, fun e he ↦ ?_⟩
      rcases List.mem_cons.mp he with rfl | he
      · rfl
      · exact hr e he

/-- The result on a server that executes the calls, and the server afterwards. -/
def serve {σ : Type} (server : σ → (c : C) → R c × σ) : Prog C R α → σ → α × σ
  | done a, w => (a, w)
  | call c k, w => (k (server w c).1).serve server (server w c).2

/-- A server executes a sequence part by part. -/
theorem serve_bind {σ : Type} (server : σ → (c : C) → R c × σ) (p : Prog C R α)
    (f : α → Prog C R β) (w : σ) :
    (p.bind f).serve server w = (f (p.serve server w).1).serve server (p.serve server w).2 := by
  induction p generalizing w with
  | done a => rfl
  | call c k ih => exact ih _ _

/-! ### Programs over a part of the calls -/

section
variable {D : Type} {S : D → Type} (call' : C → D) (reply : ∀ c, S (call' c) → R c)

/-- A program over the calls `C` as one over the calls `D` that contain them. -/
def embed : Prog C R α → Prog D S α
  | done a => done a
  | call c k => call (call' c) fun r ↦ (k (reply c r)).embed

/-- The runs of an embedded program are the embedded runs. -/
theorem run_embed {p : Prog C R α} {t : List (Sigma S)} {a : α}
    (h : Run (p.embed call' reply) t a) :
    ∃ u, Run p u a ∧ List.Forall₂ (fun e d ↦ ∃ r, d = ⟨call' e.1, r⟩ ∧ e.2 = reply e.1 r) u t := by
  induction p generalizing t with
  | done b =>
    rw [embed, run_done] at h
    obtain ⟨rfl, rfl⟩ := h
    exact ⟨[], Steps.refl _, .nil⟩
  | call c k ih =>
    rw [embed, run_call] at h
    obtain ⟨r, t', rfl, h⟩ := h
    obtain ⟨u, hu, hf⟩ := ih _ h
    exact ⟨⟨c, reply c r⟩ :: u, Steps.call _ hu, .cons ⟨r, rfl, rfl⟩ hf⟩

/-- The calls of an embedded program are those of a run of its own. -/
theorem exists_run_of_embed {p : Prog C R α} {t : List (Sigma S)} {a : α}
    (h : Run (p.embed call' reply) t a) :
    ∃ u, Run p u a ∧ (∀ e ∈ t, ∃ d ∈ u, ∃ r, e = ⟨call' d.1, r⟩ ∧ d.2 = reply d.1 r) ∧
      ∀ d ∈ u, ∃ r, (⟨call' d.1, r⟩ : Sigma S) ∈ t ∧ d.2 = reply d.1 r := by
  obtain ⟨u, hu, hf⟩ := run_embed call' reply h
  refine ⟨u, hu, ?_⟩
  clear hu h
  induction hf with
  | nil => exact ⟨nofun, nofun⟩
  | @cons d e u t hd _ ih =>
    obtain ⟨r, rfl, hr⟩ := hd
    constructor
    · intro e he
      rcases List.mem_cons.mp he with rfl | he
      · exact ⟨d, List.mem_cons_self, r, rfl, hr⟩
      · obtain ⟨d', hd', hx⟩ := ih.1 e he
        exact ⟨d', List.mem_cons_of_mem _ hd', hx⟩
    · intro d' hd'
      rcases List.mem_cons.mp hd' with rfl | hd'
      · exact ⟨r, List.mem_cons_self, hr⟩
      · obtain ⟨r', hm, hr'⟩ := ih.2 d' hd'
        exact ⟨r', List.mem_cons_of_mem _ hm, hr'⟩

end
end Prog

/-! ### Programs with state and exceptions -/

/-- A program that keeps a state and may raise an exception; what was done before an
exception stays done. -/
def Py (S ε : Type) (C : Type) (R : C → Type) (α : Type) : Type :=
  S → Prog C R (Except ε α × S)

namespace Py

variable {S ε C : Type} {R : C → Type} {α β : Type}

/-- What follows an outcome: the rest of a sequence after a value, nothing after an exception. -/
def andThen (f : α → Py S ε C R β) : Except ε α × S → Prog C R (Except ε β × S)
  | (.ok a, s) => f a s
  | (.error e, s) => .done (.error e, s)

/-- What follows an outcome: nothing after a value, a handler after an exception. -/
def orElse (h : ε → Py S ε C R α) : Except ε α × S → Prog C R (Except ε α × S)
  | (.ok a, s) => .done (.ok a, s)
  | (.error e, s) => h e s

instance : Monad (Py S ε C R) where
  pure a := fun s ↦ .done (.ok a, s)
  bind m f := fun s ↦ (m s).bind (andThen f)

/-- Raise an exception. -/
def raise (e : ε) : Py S ε C R α := fun s ↦ .done (.error e, s)

/-- `try m except e: h e`. -/
def handle (m : Py S ε C R α) (h : ε → Py S ε C R α) : Py S ε C R α :=
  fun s ↦ (m s).bind (orElse h)

/-- Read the state. -/
def read : Py S ε C R S := fun s ↦ .done (.ok s, s)

/-- Change the state. -/
def update (f : S → S) : Py S ε C R Unit := fun s ↦ .done (.ok (), f s)

/-- Call the environment. -/
def ask (c : C) : Py S ε C R (R c) := fun s ↦ .call c fun r ↦ .done (.ok r, s)

/-- A value or an exception. -/
def ofExcept : Except ε α → Py S ε C R α
  | .ok a => pure a
  | .error e => raise e

/-- A complete run from one state to another, with the value or the exception it ends in. -/
def Run (m : Py S ε C R α) (s : S) (t : List (Sigma R)) (out : Except ε α) (s' : S) : Prop :=
  Prog.Run (m s) t (out, s')

variable {s s' : S} {t : List (Sigma R)}

/-- A value goes on with what is made of it. -/
theorem pure_bind (a : α) (f : α → Py S ε C R β) : pure a >>= f = f a := rfl

/-- Returning the value changes nothing. -/
theorem bind_pure (m : Py S ε C R α) : (m >>= fun a ↦ pure a) = m := by
  funext s
  have h : andThen (pure : α → Py S ε C R α) = Prog.done := by
    funext x
    rcases x with ⟨_ | a, s⟩ <;> rfl
  exact (congrArg (m s).bind h).trans (Prog.bind_done _)

/-- Methods are put together in either order. -/
theorem bind_assoc {γ : Type} (m : Py S ε C R α) (f : α → Py S ε C R β) (g : β → Py S ε C R γ) :
    m >>= f >>= g = m >>= fun a ↦ f a >>= g := by
  funext s
  refine (Prog.bind_assoc _ _ _).trans (congrArg (m s).bind ?_)
  funext x
  rcases x with ⟨_ | a, s⟩ <;> rfl

/-- A value is returned at once. -/
@[simp] theorem run_pure {a : α} {out : Except ε α} :
    Run (pure a : Py S ε C R α) s t out s' ↔ t = [] ∧ out = .ok a ∧ s' = s := by
  show Prog.Run (.done _) t _ ↔ _
  simp

/-- An exception is raised at once. -/
@[simp] theorem run_raise {e : ε} {out : Except ε α} :
    Run (raise e : Py S ε C R α) s t out s' ↔ t = [] ∧ out = .error e ∧ s' = s := by
  show Prog.Run (.done _) t _ ↔ _
  simp

/-- An update changes the state and asks nothing. -/
@[simp] theorem run_update {f : S → S} {out : Except ε Unit} :
    Run (update f : Py S ε C R Unit) s t out s' ↔ t = [] ∧ out = .ok () ∧ s' = f s := by
  show Prog.Run (.done _) t _ ↔ _
  simp

/-- A call returns its reply. -/
@[simp] theorem run_ask {c : C} {out : Except ε (R c)} :
    Run (ask c : Py S ε C R (R c)) s t out s' ↔ ∃ r, t = [⟨c, r⟩] ∧ out = .ok r ∧ s' = s := by
  show Prog.Run (.call _ _) t _ ↔ _
  simp only [Prog.run_call, Prog.run_done, Prod.mk.injEq]
  constructor
  · rintro ⟨r, t', rfl, rfl, rfl, rfl⟩
    exact ⟨r, rfl, rfl, rfl⟩
  · rintro ⟨r, rfl, rfl, rfl⟩
    exact ⟨r, [], rfl, rfl, rfl, rfl⟩

/-- A result is returned or raised. -/
@[simp] theorem run_ofExcept {x : Except ε α} {out : Except ε α} :
    Run (ofExcept x : Py S ε C R α) s t out s' ↔ t = [] ∧ out = x ∧ s' = s := by
  cases x <;> simp [ofExcept]

/-- A sequence ends in the exception of its first part, or runs its second part on. -/
theorem run_bind {m : Py S ε C R α} {f : α → Py S ε C R β} {out : Except ε β} :
    Run (m >>= f) s t out s' ↔
      (∃ e, Run m s t (.error e) s' ∧ out = .error e) ∨
      ∃ a t₁ t₂ s₁, t = t₁ ++ t₂ ∧ Run m s t₁ (.ok a) s₁ ∧ Run (f a) s₁ t₂ out s' := by
  show Prog.Run ((m s).bind _) t _ ↔ _
  rw [Prog.run_bind]
  constructor
  · rintro ⟨t₁, ⟨x, s₁⟩, t₂, rfl, h₁, h₂⟩
    cases x with
    | ok a => exact .inr ⟨a, t₁, t₂, s₁, rfl, h₁, h₂⟩
    | error e =>
      simp only [andThen, Prog.run_done, Prod.mk.injEq] at h₂
      obtain ⟨rfl, rfl, rfl⟩ := h₂
      rw [List.append_nil]
      exact .inl ⟨e, h₁, rfl⟩
  · rintro (⟨e, h, rfl⟩ | ⟨a, t₁, t₂, s₁, rfl, h₁, h₂⟩)
    · exact ⟨t, _, [], (List.append_nil t).symm, h, Prog.Steps.refl _⟩
    · exact ⟨t₁, _, t₂, rfl, h₁, h₂⟩

/-- The calls, the outcome and the last state under an environment. -/
def exec (env : List (Sigma R) → (c : C) → R c) (m : Py S ε C R α) (s : S) :
    List (Sigma R) × Except ε α × S :=
  Prog.exec env (m s) []

/-- Execution gives a run. -/
theorem run_exec (env : List (Sigma R) → (c : C) → R c) (m : Py S ε C R α) (s : S) :
    Run m s (exec env m s).1 (exec env m s).2.1 (exec env m s).2.2 :=
  Prog.run_exec env (m s) []

/-- The outcome on a server that executes the calls, the last state, and the server. -/
def serve {σ : Type} (server : σ → (c : C) → R c × σ) (m : Py S ε C R α) (s : S) (w : σ) :
    Except ε α × S × σ :=
  (((m s).serve server w).1.1, ((m s).serve server w).1.2, ((m s).serve server w).2)

/-- A server executes a sequence part by part, up to the first exception. -/
theorem serve_bind {σ : Type} (server : σ → (c : C) → R c × σ) (m : Py S ε C R α)
    (f : α → Py S ε C R β) (s : S) (w : σ) :
    serve server (m >>= f) s w =
      match serve server m s w with
      | (.ok a, s', w') => serve server (f a) s' w'
      | (.error e, s', w') => (.error e, s', w') := by
  have h : (m >>= f) s = (m s).bind (andThen f) := rfl
  rw [serve, serve, h, Prog.serve_bind]
  rcases (m s).serve server w with ⟨⟨_ | _, _⟩, _⟩ <;> rfl

/-- A guarded program: its value, or the handler on its exception. -/
theorem serve_handle {σ : Type} (server : σ → (c : C) → R c × σ) (m : Py S ε C R α)
    (h : ε → Py S ε C R α) (s : S) (w : σ) :
    serve server (handle m h) s w =
      match serve server m s w with
      | (.ok a, s', w') => (.ok a, s', w')
      | (.error e, s', w') => serve server (h e) s' w' := by
  rw [serve, serve, handle, Prog.serve_bind]
  rcases (m s).serve server w with ⟨⟨_ | _, _⟩, _⟩ <;> rfl

/-! ### Symbolic execution -/

/-- What goes on with a value runs on it. -/
@[simp] theorem run_pure_bind {a : α} {f : α → Py S ε C R β} {out : Except ε β} :
    Run (pure a >>= f) s t out s' ↔ Run (f a) s t out s' := by
  show Prog.Run ((Prog.done _).bind _) t _ ↔ _
  rfl

/-- Nothing runs after an exception. -/
@[simp] theorem run_raise_bind {e : ε} {f : α → Py S ε C R β} {out : Except ε β} :
    Run (raise e >>= f) s t out s' ↔ t = [] ∧ out = .error e ∧ s' = s := by
  show Prog.Run (.done _) t _ ↔ _
  simp

/-- What goes on with the state runs on it. -/
@[simp] theorem run_read_bind {f : S → Py S ε C R β} {out : Except ε β} :
    Run (read >>= f) s t out s' ↔ Run (f s) s t out s' := by
  show Prog.Run ((Prog.done _).bind _) t _ ↔ _
  rfl

/-- What follows an update runs from the new state. -/
@[simp] theorem run_update_bind {g : S → S} {f : Unit → Py S ε C R β} {out : Except ε β} :
    Run (update g >>= f) s t out s' ↔ Run (f ()) (g s) t out s' := by
  show Prog.Run ((Prog.done _).bind _) t _ ↔ _
  rfl

/-- What follows a call runs on its reply. -/
@[simp] theorem run_ask_bind {c : C} {f : R c → Py S ε C R β} {out : Except ε β} :
    Run (ask c >>= f) s t out s' ↔ ∃ r t', t = ⟨c, r⟩ :: t' ∧ Run (f r) s t' out s' := by
  show Prog.Run (.call _ _) t _ ↔ _
  rw [Prog.run_call]
  rfl

/-- What follows a returned result runs on it. -/
@[simp] theorem run_ofExcept_ok_bind {a : α} {f : α → Py S ε C R β} {out : Except ε β} :
    Run (ofExcept (.ok a) >>= f) s t out s' ↔ Run (f a) s t out s' := run_pure_bind

/-- Nothing runs after a raised result. -/
@[simp] theorem run_ofExcept_error_bind {e : ε} {f : α → Py S ε C R β} {out : Except ε β} :
    Run (ofExcept (.error e) >>= f) s t out s' ↔ t = [] ∧ out = .error e ∧ s' = s := run_raise_bind

/-- A sequence that begins with a call. -/
theorem run_ask_bind_bind {c : C} {g : R c → Py S ε C R α} {f : α → Py S ε C R β}
    {out : Except ε β} :
    Run (ask c >>= g >>= f) s t out s' ↔
      ∃ r t', t = ⟨c, r⟩ :: t' ∧ Run (g r >>= f) s t' out s' := by
  show Prog.Run (.call _ _) t _ ↔ _
  rw [Prog.run_call]
  rfl

/-- What goes on after a value stops at an exception. -/
theorem run_ofExcept_bind {x : Except ε α} {f : α → Py S ε C R β} {out : Except ε β} :
    Run (ofExcept x >>= f) s t out s' ↔
      (∃ a, x = .ok a ∧ Run (f a) s t out s') ∨
        ∃ e, x = .error e ∧ t = [] ∧ out = .error e ∧ s' = s := by
  cases x <;> simp

/-- A guarded program ends in its own value, or runs the handler of its exception. -/
theorem run_handle {m : Py S ε C R α} {h : ε → Py S ε C R α} {out : Except ε α} :
    Run (handle m h) s t out s' ↔
      (∃ a, Run m s t (.ok a) s' ∧ out = .ok a) ∨
      ∃ e t₁ t₂ s₁, t = t₁ ++ t₂ ∧ Run m s t₁ (.error e) s₁ ∧ Run (h e) s₁ t₂ out s' := by
  show Prog.Run ((m s).bind _) t _ ↔ _
  rw [Prog.run_bind]
  constructor
  · rintro ⟨t₁, ⟨x, s₁⟩, t₂, rfl, h₁, h₂⟩
    cases x with
    | ok a =>
      simp only [orElse, Prog.run_done, Prod.mk.injEq] at h₂
      obtain ⟨rfl, rfl, rfl⟩ := h₂
      rw [List.append_nil]
      exact .inl ⟨a, h₁, rfl⟩
    | error e => exact .inr ⟨e, t₁, t₂, s₁, rfl, h₁, h₂⟩
  · rintro (⟨a, h, rfl⟩ | ⟨e, t₁, t₂, s₁, rfl, h₁, h₂⟩)
    · exact ⟨t, _, [], (List.append_nil t).symm, h, Prog.Steps.refl _⟩
    · exact ⟨t₁, _, t₂, rfl, h₁, h₂⟩

end Py
end NhiSentinel.Base
