import Mathlib.Data.List.Flatten
import Mathlib.Data.List.Infix
import NhiSentinel.Base.Value

/-!
# Evaluation of policy rules

The part of the Rego language a rule body is made of: references that may be
undefined, comparisons, negation as failure, iteration and complete rules with
several bodies. Evaluation gives a value, nothing, or an error; the only error is a
complete rule whose applicable bodies assign different values. A builtin applied to
an operand of the wrong type is undefined.
-/

namespace NhiSentinel.Rego
open NhiSentinel.Base

/-- The errors that stop an evaluation. -/
inductive EvalError where
  /-- Complete rules must not produce multiple outputs. -/
  | conflict
  deriving DecidableEq

/-- What evaluating an expression or a rule gives. -/
inductive Eval (α : Type) where
  | undefined
  | value (a : α)
  | error (e : EvalError)
  deriving DecidableEq

namespace Eval

variable {α β γ : Type}

/-- Sequencing stops at the first undefined statement and at the first error. -/
def bind (x : Eval α) (f : α → Eval β) : Eval β :=
  match x with
  | undefined => undefined
  | value a => f a
  | error e => error e

instance : Monad Eval where
  pure := value
  bind := bind

/-- A reference that is undefined where nothing is found. -/
def ofOption : Option α → Eval α
  | some a => value a
  | none => undefined

/-- A statement that a boolean builtin decides. -/
def guard (p : Bool) : Eval Unit := if p then value () else undefined

/-- An expression as a statement of a body: it fails where it is undefined or false. -/
def check (x : Eval Value) : Eval Unit :=
  x.bind fun v ↦ guard (v ≠ .bool false)

/-- `not x`: undefined and false alike make it succeed. -/
def naf : Eval Value → Eval Unit
  | undefined => value ()
  | value v => guard (v = .bool false)
  | error e => error e

/-- `x == y`, undefined where a side is undefined. -/
def equals (x y : Eval Value) : Eval Unit :=
  x.bind fun v ↦ y.bind fun w ↦ guard (v = w)

/-- A rule that is true when it is defined, as a value. -/
def flag (p : Bool) : Eval Value := if p then value (.bool true) else undefined

/-- The evaluation is defined and true. -/
def holds (x : Eval Value) : Bool := x = value (.bool true)

/-- The statement or body succeeds. -/
def succeeds (x : Eval Unit) : Bool := x = value ()

/-- The evaluation does not stop with an error. -/
def Safe (x : Eval α) : Prop := ∀ e, x ≠ error e

/-- Nothing follows an undefined expression. -/
@[simp] theorem bind_undefined (f : α → Eval β) : undefined >>= f = undefined := rfl

/-- What follows a value goes on with it. -/
@[simp] theorem bind_value (a : α) (f : α → Eval β) : value a >>= f = f a := rfl

/-- A value is defined. -/
@[simp] theorem pure_eq (a : α) : (pure a : Eval α) = value a := rfl

/-- The bind of the monad is that of evaluations. -/
@[simp] theorem bind_eq (x : Eval α) (f : α → Eval β) : x.bind f = x >>= f := rfl

/-- A condition that holds is defined. -/
@[simp] theorem guard_true : guard true = value () := rfl

/-- A condition that fails is undefined. -/
@[simp] theorem guard_false : guard false = undefined := rfl

/-- A rule whose body holds is `true`. -/
@[simp] theorem flag_true : flag true = value (.bool true) := rfl

/-- A rule whose body fails is undefined. -/
@[simp] theorem flag_false : flag false = undefined := rfl

/-- A value that is there is defined. -/
@[simp] theorem ofOption_some (a : α) : ofOption (some a) = value a := rfl

/-- A value that is missing is undefined. -/
@[simp] theorem ofOption_none : (ofOption none : Eval α) = undefined := rfl

/-- A true-or-undefined rule as a statement. -/
@[simp] theorem check_flag (p : Bool) : check (flag p) = guard p := by cases p <;> rfl

/-- A true-or-undefined rule holds as its condition does. -/
@[simp] theorem holds_flag (p : Bool) : (flag p).holds = p := by cases p <;> rfl

/-- A guard succeeds as its condition does. -/
@[simp] theorem succeeds_guard (p : Bool) : (guard p).succeeds = p := by cases p <;> rfl

/-- Two guards in sequence are their conjunction. -/
@[simp] theorem guard_bind_guard (p q : Bool) :
    (guard p >>= fun _ ↦ guard q) = guard (p && q) := by cases p <;> rfl

/-- A guard before an undefined statement does not matter. -/
theorem guard_bind_undefined (p : Bool) :
    (guard p >>= fun _ ↦ (undefined : Eval α)) = undefined := by cases p <;> rfl

/-- Negation succeeds on a missing value and on false. -/
theorem naf_ofOption (x : Option Value) :
    naf (ofOption x) = guard (x = none ∨ x = some (.bool false)) := by
  cases x <;> simp [naf]

/-- Comparison of two references. -/
theorem equals_ofOption (x y : Option Value) :
    equals (ofOption x) (ofOption y) = guard (x ≠ none ∧ x = y) := by
  cases x with
  | none => simp [equals]
  | some v => cases y <;> simp [equals]

/-! ### Evaluations without errors -/

/-- A value is no error. -/
theorem safe_value (a : α) : Safe (value a) := by simp [Safe]

/-- What is undefined is no error. -/
theorem safe_undefined : Safe (undefined : Eval α) := by simp [Safe]

/-- A value that may be missing is no error. -/
theorem safe_ofOption (x : Option α) : Safe (ofOption x) := by cases x <;> simp [Safe]

/-- A condition is no error. -/
theorem safe_guard (p : Bool) : Safe (guard p) := by cases p <;> simp [Safe]

/-- A sequence of error-free steps is error-free. -/
theorem Safe.bind {x : Eval α} {f : α → Eval β} (hx : Safe x) (hf : ∀ a, Safe (f a)) :
    Safe (x >>= f) := by
  cases x with
  | undefined => exact safe_undefined
  | value a => exact hf a
  | error e => exact absurd rfl (hx e)

/-- A condition on an expression without errors is without errors. -/
theorem Safe.check {x : Eval Value} (h : Safe x) : Safe x.check :=
  Safe.bind h fun _ ↦ safe_guard _

/-- So is its negation. -/
theorem Safe.naf {x : Eval Value} (h : Safe x) : Safe x.naf := by
  cases x with
  | undefined => exact safe_value ()
  | value v => exact safe_guard _
  | error e => exact absurd rfl (h e)

/-- Comparing expressions without errors is without errors. -/
theorem Safe.equals {x y : Eval Value} (hx : Safe x) (hy : Safe y) : Safe (x.equals y) :=
  Safe.bind hx fun _ ↦ Safe.bind hy fun _ ↦ safe_guard _

/-- An error-free statement is a guard on its own success. -/
theorem Safe.eq_guard {x : Eval Unit} (h : Safe x) : x = guard x.succeeds := by
  cases x with
  | undefined => rfl
  | value a => rfl
  | error e => exact absurd rfl (h e)

end Eval

/-! ### Complete rules -/

/-- The values that the applicable bodies of a rule assign. -/
def outputs : List (Eval Value) → Except EvalError (List Value)
  | [] => .ok []
  | .undefined :: bs => outputs bs
  | .value v :: bs => (outputs bs).map (v :: ·)
  | .error e :: _ => .error e

/-- A complete rule: undefined without an applicable body, an error when two applicable
bodies differ. -/
def rule (bodies : List (Eval Value)) : Eval Value :=
  match outputs bodies with
  | .error e => .error e
  | .ok [] => .undefined
  | .ok (v :: vs) => if vs.all (· = v) then .value v else .error .conflict

/-- A complete rule with a default for the case that no body applies. -/
def defaultRule (d : Value) (bodies : List (Eval Value)) : Eval Value :=
  match rule bodies with
  | .undefined => .value d
  | r => r

/-- `v if body`: the body guards the value. -/
def body (b : Eval Unit) (v : Eval Value) : Eval Value := b.bind fun _ ↦ v

/-- `name if b₁`, `name if b₂`, …: a rule whose only value is true. -/
def flagRule (bodies : List (Eval Unit)) : Eval Value :=
  rule (bodies.map (body · (.value (.bool true))))

namespace Eval

/-- A body whose condition is a guard. -/
@[simp] theorem body_guard (p : Bool) (v : Eval Value) :
    body (guard p) v = if p then v else undefined := by cases p <;> rfl

private theorem outputs_flags (ps : List Bool) :
    outputs (ps.map (fun p ↦ body (guard p) (value (.bool true)))) =
      .ok ((ps.filter id).map fun _ ↦ .bool true) := by
  induction ps with
  | nil => rfl
  | cons p ps ih =>
    rw [List.map_cons]
    cases p with
    | false => exact ih
    | true =>
      show (outputs _).map (Value.bool true :: ·) = _
      rw [ih]
      rfl

/-- A rule whose only value is true cannot conflict: it holds when a body does. -/
theorem flagRule_guards (ps : List Bool) : flagRule (ps.map guard) = flag (ps.any id) := by
  rw [flagRule, List.map_map]
  show rule (ps.map fun p ↦ body (guard p) (value (.bool true))) = _
  rw [rule, outputs_flags]
  cases h : ps.filter id with
  | nil =>
    have hn : ps.any id = false := by
      rw [List.any_eq_false]
      intro p hp hq
      have hm : p ∈ ps.filter id := List.mem_filter.mpr ⟨hp, hq⟩
      rw [h] at hm
      cases hm
    simp [hn]
  | cons p qs =>
    have hs : ps.any id = true := by
      have hm : p ∈ ps.filter id := by rw [h]; exact List.mem_cons_self
      exact List.any_eq_true.mpr ⟨p, (List.mem_filter.mp hm).1, (List.mem_filter.mp hm).2⟩
    simp [hs]

/-- Every body of a rule is error-free. -/
def AllSafe : List (Eval Unit) → Prop
  | [] => True
  | b :: bs => Safe b ∧ AllSafe bs

private theorem map_guard_succeeds {bodies : List (Eval Unit)} (h : AllSafe bodies) :
    (bodies.map succeeds).map guard = bodies := by
  induction bodies with
  | nil => rfl
  | cons b bs ih => rw [List.map_cons, List.map_cons, ih h.2, ← h.1.eq_guard]

/-- A rule of error-free bodies is true when one of them succeeds and undefined else. -/
theorem flagRule_eq_flag {bodies : List (Eval Unit)} (h : AllSafe bodies) :
    flagRule bodies = flag (bodies.any succeeds) := by
  conv => lhs; rw [← map_guard_succeeds h]
  rw [flagRule_guards, List.any_map]
  rfl

/-- A rule of error-free bodies is the flag of its own truth. -/
theorem flagRule_flag {bodies : List (Eval Unit)} (h : AllSafe bodies) :
    flagRule bodies = flag (flagRule bodies).holds := by
  rw [flagRule_eq_flag h, holds_flag]

/-- A rule of error-free bodies holds when one of them succeeds. -/
theorem holds_flagRule {bodies : List (Eval Unit)} (h : AllSafe bodies) :
    (flagRule bodies).holds = bodies.any succeeds := by
  rw [flagRule_eq_flag h, holds_flag]

/-- A rule with one body is that body. -/
theorem rule_singleton (b : Eval Value) : rule [b] = b := by
  cases b <;> rfl

/-- A default fills in for an undefined body. -/
theorem safe_defaultRule_singleton {d : Value} {b : Eval Value} (h : Safe b) :
    Safe (defaultRule d [b]) := by
  rw [defaultRule, rule_singleton]
  cases b with
  | undefined => exact safe_value d
  | value v => exact safe_value v
  | error e => exact absurd rfl (h e)

end Eval

/-! ### Modules -/

/-- A module: its package, the defaults of its rules, and the bodies of its complete rules on an
input, as the module by itself evaluates them. -/
structure RegoModule (ι : Type) where
  package : String
  defaults : List (String × Value)
  rules : List (String × (ι → List (Eval Value)))

namespace RegoModule
variable {ι : Type}

/-- The rules of all packages that are given a default, once for each default. -/
def defaulted (modules : List (RegoModule ι)) : List (String × String) :=
  modules.flatMap fun m ↦ m.defaults.map fun d ↦ (m.package, d.1)

/-- Modules compile together only where no rule has two defaults. -/
def compiles (modules : List (RegoModule ι)) : Bool := decide (defaulted modules).Nodup

/-- The bodies of a rule in all modules of its package. -/
def bodies (modules : List (RegoModule ι)) (package name : String) (q : ι) : List (Eval Value) :=
  (modules.filter (·.package = package)).flatMap fun m ↦ ((m.rules.lookup name).map (· q)).getD []

/-- The default of a rule in the modules of its package. -/
def default? (modules : List (RegoModule ι)) (package name : String) : Option Value :=
  (modules.filter (·.package = package)).findSome? fun m ↦ m.defaults.lookup name

/-- The document of a rule, of the bodies in all modules of its package. -/
def document (modules : List (RegoModule ι)) (package name : String) (q : ι) : Eval Value :=
  match default? modules package name with
  | some d => defaultRule d (bodies modules package name q)
  | none => rule (bodies modules package name q)

/-- Modules are free of conflicts on an input: they compile together, and no rule of the package
has two values. -/
structure ConflictFree (modules : List (RegoModule ι)) (package : String) (q : ι) : Prop where
  compiles : compiles modules = true
  safe : ∀ name, (document modules package name q).Safe

/-- Two modules of one package that both give a default to a rule do not compile, whatever else
is loaded. -/
theorem not_compiles {modules : List (RegoModule ι)} {m m' : RegoModule ι} {name : String}
    {d d' : Value} (hs : [m, m'].Sublist modules) (hp : m.package = m'.package)
    (hm : (name, d) ∈ m.defaults) (hm' : (name, d') ∈ m'.defaults) : compiles modules = false := by
  refine decide_eq_false fun hn ↦ ?_
  have h : (defaulted [m, m']).Nodup := hn.sublist (hs.flatMap _)
  rw [defaulted, List.flatMap_cons, List.flatMap_singleton, List.nodup_append] at h
  refine h.2.2 _ (List.mem_map_of_mem hm) _ (List.mem_map_of_mem hm') ?_
  rw [hp]

end RegoModule

/-! ### Builtins -/

/-- `count`: characters of a string, elements of an array, members of an object. -/
def count : Value → Eval Value
  | .str s => .value (.int s.length)
  | .arr xs => .value (.int xs.length)
  | .obj kvs => .value (.int kvs.length)
  | _ => .undefined

/-- `contains`: the second string occurs in the first. -/
def contains : Value → Value → Eval Value
  | .str s, .str t => .value (.bool (t.toList <:+: s.toList))
  | _, _ => .undefined

/-- `count` is without errors. -/
theorem safe_count (v : Value) : (count v).Safe := by cases v <;> simp [count, Eval.Safe]

/-- `contains` is without errors. -/
theorem safe_contains (v w : Value) : (contains v w).Safe := by
  unfold contains
  split
  · exact Eval.safe_value _
  · exact Eval.safe_undefined

/-- `x < y` in the order of all documents. -/
def lt (x y : Value) : Bool := x.cmp y = .lt

/-- `x >= y` in the order of all documents. -/
def ge (x y : Value) : Bool := x.cmp y ≠ .lt

/-- Lookup in a constant map from strings to strings. -/
def lookup (m : List (String × String)) : Value → Eval Value
  | .str s => .ofOption ((m.lookup s).map .str)
  | _ => .undefined

/-- Looking up a key is without errors. -/
theorem safe_lookup (m : List (String × String)) (v : Value) : (lookup m v).Safe := by
  cases v <;> first | exact Eval.safe_ofOption _ | exact Eval.safe_undefined

/-- `x in s` for a constant set of strings. -/
def mem (s : List String) : Value → Bool
  | .str t => t ∈ s
  | _ => false

/-- `time.clock([ns, "UTC"])[0]`: the hour of a time in nanoseconds. -/
def clockHour (ns : Int) : Value := .int (ns / 3600000000000 % 24)

/-! ### Replacing a part of the input -/

/-- The members of an object; a document that is no object has none. -/
def members : Value → List (String × Value)
  | .obj kvs => kvs
  | _ => []

/-- `input with input.k₁.k₂… as w`: the document with `w` at a path, along which objects are
created where there are none. -/
def replaceAt (w : Value) : List String → Value → Value
  | [], _ => w
  | k :: path, v => .obj (Value.setMember (members v) k (replaceAt w path ((v.get? k).getD .null)))

/-- Neither path leads through the other. -/
def Apart (p p' : List String) : Prop := ¬ p <+: p' ∧ ¬ p' <+: p

instance (p p' : List String) : Decidable (Apart p p') := inferInstanceAs (Decidable (_ ∧ _))

/-- A member of an object is found under its key. -/
theorem lookup_members (v : Value) (key : String) : (members v).lookup key = v.get? key := by
  cases v <;> rfl

/-- The replaced part is what was put there. -/
theorem path?_replaceAt (w : Value) (path : List String) (v : Value) :
    (replaceAt w path v).path? path = some w := by
  induction path generalizing v with
  | nil => rfl
  | cons k path ih =>
    rw [replaceAt, Value.path?_cons, Value.get?_obj, Value.lookup_setMember_self,
      Option.bind_some, ih]

private theorem path?_null {path : List String} (h : path ≠ []) :
    Value.null.path? path = none := by
  cases path with
  | nil => exact absurd rfl h
  | cons k path => rfl

/-- A part apart from the replaced one is as it was. -/
theorem path?_replaceAt_of_apart (w : Value) {path path' : List String}
    (h : Apart path path') (v : Value) :
    (replaceAt w path v).path? path' = v.path? path' := by
  induction path generalizing path' v with
  | nil => exact absurd List.nil_prefix h.1
  | cons k path ih =>
    cases path' with
    | nil => exact absurd List.nil_prefix h.2
    | cons l path' =>
      rw [replaceAt, Value.path?_cons, Value.path?_cons, Value.get?_obj]
      by_cases hl : l = k
      · subst hl
        have ha : Apart path path' :=
          ⟨fun hp ↦ h.1 (List.cons_prefix_cons.mpr ⟨rfl, hp⟩),
            fun hp ↦ h.2 (List.cons_prefix_cons.mpr ⟨rfl, hp⟩)⟩
        rw [Value.lookup_setMember_self, Option.bind_some, ih ha]
        cases v.get? l with
        | none =>
          apply path?_null
          intro hn
          rw [hn] at ha
          exact ha.2 List.nil_prefix
        | some x => rfl
      · rw [Value.lookup_setMember_ne _ _ hl, lookup_members]

/-! ### Data API -/

/-- HTTP status and body with which a policy server answers a query of one document: the
document as `result`, an empty object where it is undefined, an internal error. -/
def dataApi : Eval Value → Nat × Value
  | .value v => (200, .obj [("result", v)])
  | .undefined => (200, .obj [])
  | .error .conflict => (500, .obj [("code", .str "internal_error")])

end NhiSentinel.Rego
