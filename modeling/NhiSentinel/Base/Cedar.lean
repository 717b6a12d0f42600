import Mathlib.Data.Finset.Dedup
import Mathlib.Data.Finset.Insert

/-!
# Authorization by policies over entities

The part of the Cedar language that attribute policies use: a policy permits or forbids
the requests in its scope for which its condition evaluates to true. A condition that
errors drops its policy, a forbidding policy overrides every permitting one, and what no
policy permits is denied.
-/

namespace NhiSentinel.Cedar

/-- The identifier of an entity. -/
structure EntityUID where
  type : String
  id : String
  deriving DecidableEq

/-- Booleans, strings and entity references. -/
inductive Prim where
  | bool (b : Bool)
  | string (s : String)
  | entity (uid : EntityUID)
  deriving DecidableEq

/-- A primitive value or a set of them. -/
inductive Value where
  | prim (p : Prim)
  | set (ps : Finset Prim)
  deriving DecidableEq

/-- Why an evaluation fails. -/
inductive EvalError where
  | typeError
  | entityDoesNotExist
  | attrDoesNotExist
  deriving DecidableEq

/-- What the entity store holds of an entity. -/
structure EntityData where
  attrs : List (String × Value)
  ancestors : List EntityUID

/-- The entity store. -/
abbrev Entities := List (EntityUID × EntityData)

/-- Who asks to do what to what. -/
structure Request where
  principal : EntityUID
  action : EntityUID
  resource : EntityUID

/-- The variables of a condition. -/
inductive Var where
  | principal
  | action
  | resource
  deriving DecidableEq

/-- Conditions and the terms in them. -/
inductive Expr where
  | lit (p : Prim)
  | set (ps : List Prim)
  | var (v : Var)
  | getAttr (e : Expr) (attr : String)
  | not (e : Expr)
  | and (e₁ e₂ : Expr)
  | eq (e₁ e₂ : Expr)
  | mem (e₁ e₂ : Expr)

namespace Expr

/-- A string literal. -/
def str (s : String) : Expr := .lit (.string s)

/-- `principal.attr`. -/
def ofPrincipal (attr : String) : Expr := .getAttr (.var .principal) attr

/-- `resource.attr`. -/
def ofResource (attr : String) : Expr := .getAttr (.var .resource) attr

/-- `e₁ != e₂`. -/
def ne (e₁ e₂ : Expr) : Expr := .not (.eq e₁ e₂)

end Expr

/-! ### Evaluation -/

/-- The entity that a variable stands for. -/
def Request.get (q : Request) : Var → EntityUID
  | .principal => q.principal
  | .action => q.action
  | .resource => q.resource

/-- A value as a boolean. -/
def Value.asBool : Value → Except EvalError Bool
  | .prim (.bool b) => .ok b
  | _ => .error .typeError

/-- The entity that a primitive value refers to. -/
def Prim.entity? : Prim → Option EntityUID
  | .entity uid => some uid
  | _ => none

/-- A value as an entity. -/
def Value.asEntity : Value → Except EvalError EntityUID
  | .prim (.entity uid) => .ok uid
  | _ => .error .typeError

/-- The entity is the other one or a descendant of it. -/
def inEntity (es : Entities) (uid ancestor : EntityUID) : Bool :=
  uid = ancestor || ((es.lookup uid).any fun d ↦ ancestor ∈ d.ancestors)

/-- `e₁ in e₂` on values: both sides are entities, or the right one is a set of them. -/
def inValue (es : Entities) (v w : Value) : Except EvalError Bool := do
  let uid ← v.asEntity
  match w with
  | .prim (.entity ancestor) => .ok (inEntity es uid ancestor)
  | .prim _ => .error .typeError
  | .set ps =>
    if ∀ p ∈ ps, p.entity?.isSome then
      .ok (decide (∃ p ∈ ps, p.entity?.any (inEntity es uid)))
    else .error .typeError

/-- Evaluation of a condition; a conjunction stops at a false left side. -/
def evaluate (q : Request) (es : Entities) : Expr → Except EvalError Value
  | .lit p => .ok (.prim p)
  | .set ps => .ok (.set ps.toFinset)
  | .var v => .ok (.prim (.entity (q.get v)))
  | .getAttr e attr => do
    let uid ← (← evaluate q es e).asEntity
    match es.lookup uid with
    | none => .error .entityDoesNotExist
    | some d =>
      match d.attrs.lookup attr with
      | none => .error .attrDoesNotExist
      | some v => .ok v
  | .not e => do
    let b ← (← evaluate q es e).asBool
    return .prim (.bool !b)
  | .and e₁ e₂ => do
    if ← (← evaluate q es e₁).asBool then
      let b ← (← evaluate q es e₂).asBool
      return .prim (.bool b)
    else return .prim (.bool false)
  | .eq e₁ e₂ => do
    let v ← evaluate q es e₁
    let w ← evaluate q es e₂
    return .prim (.bool (v = w))
  | .mem e₁ e₂ => do
    let v ← evaluate q es e₁
    let w ← evaluate q es e₂
    return .prim (.bool (← inValue es v w))

/-! ### Policies -/

/-- What a policy does where it applies. -/
inductive Effect where
  | permit
  | forbid
  deriving DecidableEq

/-- What the head of a policy asks of a principal, an action or a resource. -/
inductive Scope where
  | any
  | eq (uid : EntityUID)
  | is (type : String)
  | mem (uids : List EntityUID)

/-- A policy; one without a condition has the condition true. -/
structure Policy where
  effect : Effect
  principal : Scope
  action : Scope
  resource : Scope
  condition : Expr

/-- The answer to a request. -/
inductive Decision where
  | allow
  | deny
  deriving DecidableEq

/-- The entity is in the scope. -/
def Scope.matches (es : Entities) (uid : EntityUID) : Scope → Bool
  | .any => true
  | .eq uid' => uid = uid'
  | .is type => uid.type = type
  | .mem uids => uids.any (inEntity es uid)

/-- The request is in the scope of the policy. -/
def Policy.applies (p : Policy) (q : Request) (es : Entities) : Bool :=
  p.principal.matches es q.principal && p.action.matches es q.action &&
    p.resource.matches es q.resource

/-- The request is in the scope of the policy and its condition is true of it. -/
def Policy.satisfied (p : Policy) (q : Request) (es : Entities) : Bool :=
  p.applies q es && (evaluate q es p.condition = .ok (.prim (.bool true)))

/-- The decision of a set of policies. -/
def authorize (ps : List Policy) (q : Request) (es : Entities) : Decision :=
  if ps.any fun p ↦ p.effect = .forbid && p.satisfied q es then .deny
  else if ps.any fun p ↦ p.effect = .permit && p.satisfied q es then .allow
  else .deny

/-- A Boolean is one. -/
@[simp] theorem Value.asBool_bool (b : Bool) : (Value.prim (.bool b)).asBool = .ok b := rfl

/-- Only a Boolean is taken for one. -/
theorem Value.eq_of_asBool {v : Value} {b : Bool} (h : v.asBool = .ok b) :
    v = .prim (.bool b) := by
  unfold Value.asBool at h
  split at h
  · cases h
    rfl
  · cases h

/-- Only an entity is taken for one. -/
theorem Value.eq_of_asEntity {v : Value} {uid : EntityUID} (h : v.asEntity = .ok uid) :
    v = .prim (.entity uid) := by
  unfold Value.asEntity at h
  split at h
  · cases h
    rfl
  · cases h

/-- In a store without hierarchy an entity is in itself only. -/
theorem inEntity_of_flat {es : Entities} (h : ∀ kv ∈ es, kv.2.ancestors = [])
    (uid ancestor : EntityUID) : inEntity es uid ancestor = decide (uid = ancestor) := by
  have hn : (es.lookup uid).any (fun d ↦ ancestor ∈ d.ancestors) = false := by
    cases hl : es.lookup uid with
    | none => rfl
    | some d =>
      obtain ⟨l₁, l₂, he, -⟩ := List.lookup_eq_some_iff.mp hl
      have hd : d.ancestors = [] := h (uid, d) (by simp [he])
      simp [hd]
  rw [inEntity, hn, Bool.or_false]

section Rules

variable {q : Request} {es : Entities} {e e₁ e₂ : Expr}

/-- A request is allowed when some policy permits it and none forbids it. -/
theorem authorize_eq_allow_iff (ps : List Policy) :
    authorize ps q es = .allow ↔
      (∃ p ∈ ps, p.effect = .permit ∧ p.satisfied q es = true) ∧
        ∀ p ∈ ps, p.effect = .forbid → p.satisfied q es = false := by
  unfold authorize
  split
  · next h =>
    obtain ⟨p, hp, hs⟩ := List.any_eq_true.mp h
    rw [Bool.and_eq_true, decide_eq_true_eq] at hs
    constructor
    · intro hd
      cases hd
    · intro hn
      have hf := hn.2 p hp hs.1
      rw [hs.2] at hf
      cases hf
  · next h =>
    have hn : ∀ p ∈ ps, p.effect = .forbid → p.satisfied q es = false := by
      intro p hp he
      rw [← Bool.not_eq_true]
      intro hs
      exact h (List.any_eq_true.mpr ⟨p, hp, by simp [he, hs]⟩)
    split
    · next ha =>
      obtain ⟨p, hp, hs⟩ := List.any_eq_true.mp ha
      rw [Bool.and_eq_true, decide_eq_true_eq] at hs
      exact ⟨fun _ ↦ ⟨⟨p, hp, hs⟩, hn⟩, fun _ ↦ rfl⟩
    · next ha =>
      constructor
      · intro hd
        cases hd
      · rintro ⟨⟨p, hp, he, hs⟩, -⟩
        exact absurd (List.any_eq_true.mpr ⟨p, hp, by simp [he, hs]⟩) ha

/-- Where no policy permits, the request is denied. -/
theorem authorize_eq_deny_of_not_permitted (ps : List Policy)
    (h : ∀ p ∈ ps, p.effect = .permit → p.satisfied q es = false) :
    authorize ps q es = .deny := by
  cases hd : authorize ps q es with
  | deny => rfl
  | allow =>
    obtain ⟨⟨p, hp, he, hs⟩, -⟩ := (authorize_eq_allow_iff ps).mp hd
    rw [h p hp he] at hs
    cases hs

/-- A policy is satisfied where its head and its condition are; a condition that errors
drops it. -/
theorem Policy.satisfied_iff (p : Policy) :
    p.satisfied q es = true ↔
      p.applies q es = true ∧ evaluate q es p.condition = .ok (.prim (.bool true)) := by
  rw [Policy.satisfied, Bool.and_eq_true, decide_eq_true_eq]

/-- An attribute of an entity in the store. -/
theorem evaluate_getAttr_var {v : Var} {d : EntityData} (h : es.lookup (q.get v) = some d)
    (attr : String) :
    evaluate q es (.getAttr (.var v) attr) =
      match d.attrs.lookup attr with
      | none => .error .attrDoesNotExist
      | some w => .ok w := by
  show (match es.lookup (q.get v) with
    | none => Except.error EvalError.entityDoesNotExist
    | some d => match d.attrs.lookup attr with
      | none => .error .attrDoesNotExist
      | some w => .ok w) = _
  rw [h]

/-- A conjunction is true when both sides are. -/
theorem evaluate_and_true_iff :
    evaluate q es (.and e₁ e₂) = .ok (.prim (.bool true)) ↔
      evaluate q es e₁ = .ok (.prim (.bool true)) ∧
        evaluate q es e₂ = .ok (.prim (.bool true)) := by
  rw [evaluate]
  cases evaluate q es e₁ with
  | error err => simp [bind, Except.bind]
  | ok v =>
    cases hv : v.asBool with
    | error err =>
      have hn : v ≠ .prim (.bool true) := by
        intro he
        rw [he] at hv
        cases hv
      simp [bind, Except.bind, hv, hn]
    | ok b =>
      rw [Value.eq_of_asBool hv]
      cases b with
      | false => simp [bind, Except.bind, pure, Except.pure]
      | true =>
        cases evaluate q es e₂ with
        | error err => simp [bind, Except.bind]
        | ok w =>
          cases hw : w.asBool with
          | error err =>
            have hn : w ≠ .prim (.bool true) := by
              intro he
              rw [he] at hw
              cases hw
            simp [bind, Except.bind, hw, hn]
          | ok c =>
            rw [Value.eq_of_asBool hw]
            simp [bind, Except.bind, pure, Except.pure]

/-- A comparison with a string is true of that string. -/
theorem evaluate_eq_str_true_iff {s : String} :
    evaluate q es (.eq e (.str s)) = .ok (.prim (.bool true)) ↔
      evaluate q es e = .ok (.prim (.string s)) := by
  rw [evaluate]
  cases evaluate q es e with
  | error err => simp [bind, Except.bind]
  | ok v => simp [bind, Except.bind, pure, Except.pure, evaluate, Expr.str]

/-- A difference from a string is true of every other value. -/
theorem evaluate_ne_str_true_iff {s : String} :
    evaluate q es (.ne e (.str s)) = .ok (.prim (.bool true)) ↔
      ∃ v, evaluate q es e = .ok v ∧ v ≠ .prim (.string s) := by
  rw [Expr.ne, evaluate, evaluate]
  cases evaluate q es e with
  | error err => simp [bind, Except.bind]
  | ok v => simp [bind, Except.bind, pure, Except.pure, evaluate, Expr.str, Value.asBool]

/-- Only an entity is in anything. -/
theorem entity_of_evaluate_mem {v : Value} (h : evaluate q es (.mem e₁ e₂) = .ok v) :
    ∃ uid, evaluate q es e₁ = .ok (.prim (.entity uid)) := by
  rw [evaluate] at h
  cases h₁ : evaluate q es e₁ with
  | error err => simp [h₁, bind, Except.bind] at h
  | ok w =>
    cases h₂ : evaluate q es e₂ with
    | error err => simp [h₁, h₂, bind, Except.bind] at h
    | ok w' =>
      cases hw : w.asEntity with
      | error err => simp [h₁, h₂, hw, inValue, bind, Except.bind] at h
      | ok uid => exact ⟨uid, congrArg Except.ok (Value.eq_of_asEntity hw)⟩

end Rules

end NhiSentinel.Cedar
