import NhiSentinel.Agents.ToolRegistry
import NhiSentinel.Base.Text
import NhiSentinel.Identity.ManifestSchema
import NhiSentinel.Policy.Decision

/-!
# Three ways to decide a scope

A granted scope is looked for in a joined string and in an array by the policy, and in a
set by the tool registry. The array and the set agree; the string form accepts every
scope that contains the required one.
-/

namespace NhiSentinel.Policy.ScopeCheck
open NhiSentinel.Base NhiSentinel.Rego NhiSentinel.Pep NhiSentinel.Agents NhiSentinel.Identity
open Main (describeRequest)

/-- The request with its scopes in one string, separated by single spaces. -/
def stringForm (r : ActionRequest) (now : Int) (ss : List String) : Query :=
  ⟨{ r with tokenClaims := [("scope", .str (" ".intercalate ss))] }.dump, now⟩

/-- The request with its scopes in an array. -/
def arrayForm (r : ActionRequest) (now : Int) (ss : List String) : Query :=
  ⟨{ r with tokenClaims := [("scopes", .arr (ss.map .str))] }.dump, now⟩

/-- The three decisions agree on the action of a request and its required scope. -/
structure ScopeAgreement (r : ActionRequest) (now : Int) (ss : List String) (req : String) :
    Prop where
  forms : (actionInScope (stringForm r now ss)).holds = true ↔
    (actionInScope (arrayForm r now ss)).holds = true
  element : (actionInScope (arrayForm r now ss)).holds = true ↔ req ∈ ss
  offeredString : ∀ entry ∈ toolCatalog, entry.2.action = r.action →
    (entry ∈ (ToolRegistry.ofScopes ss).available ↔
      (actionInScope (stringForm r now ss)).holds = true)
  offeredArray : ∀ entry ∈ toolCatalog, entry.2.action = r.action →
    (entry ∈ (ToolRegistry.ofScopes ss).available ↔
      (actionInScope (arrayForm r now ss)).holds = true)

private theorem mapped_scopes : ∀ kv ∈ actionScopeMap, kv.2 ≠ "" ∧ ' ' ∉ kv.2.toList := by
  decide

/-- The catalog requires of a tool the scope that the policy maps its action to. -/
theorem catalog_scope : ∀ entry ∈ toolCatalog,
    actionScopeMap.lookup entry.2.action = some entry.2.requiredScope := by
  decide

section
variable {r : ActionRequest} {req : String} (h : actionScopeMap.lookup r.action = some req)
include h

/-- The string form holds when the required scope occurs in one of the scopes. -/
theorem holds_stringForm (now : Int) (ss : List String) :
    (actionInScope (stringForm r now ss)).holds = true ↔
      ∃ s ∈ ss, req.toList <:+: s.toList := by
  obtain ⟨before, after, hm, -⟩ := List.lookup_eq_some_iff.mp h
  have hk : (r.action, req) ∈ actionScopeMap := hm ▸ List.mem_append_right before List.mem_cons_self
  obtain ⟨hn, hs⟩ := mapped_scopes _ hk
  have ha : (inScopeArray (stringForm r now ss)).succeeds = false := by
    simp [inScopeArray, Query.ref, stringForm, Value.path?_cons, Value.get?_obj, requiredScope,
      lookup, h, List.lookup_cons, Eval.succeeds]
  have hj : " " = String.singleton ' ' := by decide
  rw [← infix_intercalate_iff hn hs, holds_actionInScope, ha, Bool.or_false, ← hj]
  simp [inScopeString, Query.ref, stringForm, Value.path?_cons, Value.get?_obj, requiredScope,
    lookup, h, contains, Eval.check]

/-- The array form holds when the required scope is an element. -/
theorem holds_arrayForm (now : Int) (ss : List String) :
    (actionInScope (arrayForm r now ss)).holds = true ↔ req ∈ ss := by
  have ha : (inScopeString (arrayForm r now ss)).succeeds = false := by
    simp [inScopeString, Query.ref, arrayForm, Value.path?_cons, Value.get?_obj, requiredScope,
      lookup, h, List.lookup_cons, Eval.succeeds]
  rw [holds_actionInScope, ha, Bool.false_or]
  simp [inScopeArray, Query.ref, arrayForm, Value.path?_cons, Value.get?_obj, requiredScope,
    lookup, h, Value.elems]

/-- The registry offers a tool for the action when the required scope is granted. -/
theorem offered_iff (ss : List String) {entry : String × ToolSpec} (he : entry ∈ toolCatalog)
    (ha : entry.2.action = r.action) :
    entry ∈ (ToolRegistry.ofScopes ss).available ↔ req ∈ ss := by
  have hc := catalog_scope entry he
  rw [ha, h] at hc
  rw [ToolRegistry.mem_ofScopes_iff he, Option.some.inj hc]

/-- The decisions agree exactly when no scope stands in for the required one by containing it. -/
theorem scopeAgreement_iff (now : Int) (ss : List String) :
    ScopeAgreement r now ss req ↔ ((∃ s ∈ ss, req.toList <:+: s.toList) → req ∈ ss) := by
  have hs := holds_stringForm h now ss
  have ha := holds_arrayForm h now ss
  constructor
  · intro hg hx
    exact ha.mp (hg.forms.mp (hs.mpr hx))
  · intro hx
    have hf : (∃ s ∈ ss, req.toList <:+: s.toList) ↔ req ∈ ss :=
      ⟨hx, fun hm ↦ ⟨req, hm, List.infix_refl _⟩⟩
    refine ⟨?_, ha, fun entry he hc ↦ ?_, fun entry he hc ↦ ?_⟩
    · rw [hs, ha, hf]
    · rw [offered_iff h ss he hc, hs, hf]
    · rw [offered_iff h ss he hc, ha]

end

/-- The decisions agree on an agent whose only scope is the required one. -/
theorem scopeAgreement_describe :
    actionScopeMap.lookup (describeRequest [] []).action = some "cloud:ec2:describe" ∧
      ScopeAgreement (describeRequest [] []) 0 ["cloud:ec2:describe"] "cloud:ec2:describe" :=
  ⟨by decide, (scopeAgreement_iff (by decide) 0 _).mpr (by decide)⟩

/-- A longer scope of an accepted manifest puts the action in scope in its string form only:
the array form and the registry refuse it. -/
theorem longer_scope_accepted :
    scopesMustBeNamespaced ["cloud:ec2:describe-images"] = .ok ["cloud:ec2:describe-images"] ∧
      actionScopeMap.lookup (describeRequest [] []).action = some "cloud:ec2:describe" ∧
      (actionInScope (stringForm (describeRequest [] []) 0
        ["cloud:ec2:describe-images"])).holds = true ∧
      (actionInScope (arrayForm (describeRequest [] []) 0
        ["cloud:ec2:describe-images"])).holds = false ∧
      (ToolRegistry.ofScopes ["cloud:ec2:describe-images"]).availableTools = [] ∧
      ¬ ScopeAgreement (describeRequest [] []) 0 ["cloud:ec2:describe-images"]
        "cloud:ec2:describe" := by
  have ha : (actionInScope (arrayForm (describeRequest [] []) 0
      ["cloud:ec2:describe-images"])).holds = false := by decide +kernel
  refine ⟨by decide, by decide, by decide +kernel, ha, by decide, fun h ↦ ?_⟩
  rw [h.forms.mp (by decide +kernel)] at ha
  cases ha

end NhiSentinel.Policy.ScopeCheck
