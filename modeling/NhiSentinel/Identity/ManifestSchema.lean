/-!
# Identity manifest

The parts of `identity/manifest_schema.py` that the runtime depends on.
-/

namespace NhiSentinel.Identity

/-- `AgentType`, `identity/manifest_schema.py:10`. -/
inductive AgentType where
  | infra
  | data
  | secops
  | provisioner
  deriving DecidableEq

/-- The value of the enumeration member. -/
def AgentType.value : AgentType → String
  | infra => "InfraAgent"
  | data => "DataAgent"
  | secops => "SecOpsAgent"
  | provisioner => "ProvisionerAgent"

/-- `scopes_must_be_namespaced`, `identity/manifest_schema.py:55`: the list itself, or the
message about its first scope without a colon. -/
def scopesMustBeNamespaced (v : List String) : Except String (List String) :=
  match v.find? (':' ∉ ·.toList) with
  | none => .ok v
  | some scope => .error s!"Scope '{scope}' must be namespaced (e.g. cloud:s3:read)"

/-- Accepted lists are the lists whose scopes all contain a colon. -/
theorem scopesMustBeNamespaced_ok_iff (v w : List String) :
    scopesMustBeNamespaced v = .ok w ↔ (∀ s ∈ v, ':' ∈ s.toList) ∧ w = v := by
  rw [scopesMustBeNamespaced]
  cases h : v.find? (':' ∉ ·.toList) with
  | none =>
    have ha : ∀ s ∈ v, ':' ∈ s.toList := by simpa using h
    constructor
    · intro he
      cases he
      exact ⟨ha, rfl⟩
    · rintro ⟨-, rfl⟩
      rfl
  | some scope =>
    have hm := List.mem_of_find?_eq_some h
    have hc : ':' ∉ scope.toList := by simpa using List.find?_some h
    constructor
    · intro he
      cases he
    · rintro ⟨ha, -⟩
      exact absurd (ha scope hm) hc

/-- `TimeWindow`, `identity/manifest_schema.py:22`. -/
structure TimeWindow where
  startHourUtc : Nat
  endHourUtc : Nat
  start_le : startHourUtc ≤ 23
  end_le : endHourUtc ≤ 23

/-- The hours of a window, up to its end. -/
def TimeWindow.Contains (window : TimeWindow) (hour : Int) : Prop :=
  (window.startHourUtc : Int) ≤ hour ∧ hour < window.endHourUtc

/-- `ContextBindings`, `identity/manifest_schema.py:27`. -/
structure ContextBindings where
  environments : List String
  timeWindow : Option TimeWindow := none
  maxActionsPerMinute : Int := 30
  max_pos : 0 < maxActionsPerMinute := by decide

/-- `AgentIdentitySpec`, `identity/manifest_schema.py:39`. -/
structure AgentIdentitySpec where
  agentType : AgentType
  scopes : List String := []
  namespaced : ∀ s ∈ scopes, ':' ∈ s.toList := by decide
  contextBindings : ContextBindings

/-- The inner characters of a name, or with `-` left out the outer ones. -/
def isNameChar (dash : Bool) (c : Char) : Bool :=
  ('a' ≤ c && c ≤ 'z') || ('0' ≤ c && c ≤ '9') || (dash && c = '-')

/-- The pattern of a name: three to 63 lower-case letters, digits and inner dashes;
`identity/manifest_schema.py:65`. -/
def matchesName (name : String) : Bool :=
  let cs := name.toList
  3 ≤ cs.length && cs.length ≤ 63 && cs.all (isNameChar true) &&
    cs.head?.any (isNameChar false) && cs.getLast?.any (isNameChar false)

/-- `AgentIdentityMetadata`, `identity/manifest_schema.py:64`. -/
structure AgentIdentityMetadata where
  name : String
  pattern : matchesName name = true := by decide

/-- `AgentIdentityManifest`, `identity/manifest_schema.py:70`: what is accepted. -/
structure AgentIdentityManifest where
  metadata : AgentIdentityMetadata
  spec : AgentIdentitySpec

/-- `identity/manifests/agent-infra-001.yaml`. -/
def agentInfra001 : AgentIdentityManifest where
  metadata := { name := "agent-infra-001" }
  spec := {
    agentType := .infra
    scopes := ["cloud:ec2:describe", "cloud:s3:list", "cloud:s3:read"]
    contextBindings := {
      environments := ["staging"]
      timeWindow := some ⟨8, 20, by decide, by decide⟩
      maxActionsPerMinute := 20 } }

end NhiSentinel.Identity
