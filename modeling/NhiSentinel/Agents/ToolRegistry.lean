/-!
# Tool registry

The catalog of tools and an agent's view of it: `agents/base/tool_registry.py`. A
dictionary is the list of its items in insertion order.
-/

namespace NhiSentinel.Agents

/-- `RiskLevel`, `tool_registry.py:18`. -/
inductive RiskLevel where
  | low
  | medium
  | high
  deriving DecidableEq

/-- `ToolSpec`, `tool_registry.py:25`. -/
structure ToolSpec where
  name : String
  action : String
  requiredScope : String
  riskLevel : RiskLevel
  destructive : Bool := false
  deriving DecidableEq

/-- `TOOL_CATALOG`, `tool_registry.py:37`. -/
def toolCatalog : List (String × ToolSpec) := [
  ("s3_list_buckets", ⟨"List S3 Buckets", "s3:ListBuckets", "cloud:s3:list", .low, false⟩),
  ("s3_get_object", ⟨"Get S3 Object", "s3:GetObject", "cloud:s3:read", .low, false⟩),
  ("s3_put_object", ⟨"Put S3 Object", "s3:PutObject", "cloud:s3:write", .medium, false⟩),
  ("s3_delete_object",
    ⟨"Delete S3 Object", "s3:DeleteObject", "cloud:s3:delete", .high, true⟩),
  ("s3_delete_bucket",
    ⟨"Delete S3 Bucket", "s3:DeleteBucket", "cloud:s3:delete", .high, true⟩),
  ("ec2_describe_instances",
    ⟨"Describe EC2 Instances", "ec2:DescribeInstances", "cloud:ec2:describe", .low, false⟩),
  ("ec2_describe_security_groups",
    ⟨"Describe Security Groups", "ec2:DescribeSecurityGroups", "cloud:ec2:describe", .low,
      false⟩),
  ("ec2_terminate_instance",
    ⟨"Terminate EC2 Instance", "ec2:TerminateInstances", "cloud:ec2:terminate", .high, true⟩),
  ("iam_list_roles", ⟨"List IAM Roles", "iam:ListRoles", "cloud:iam:read", .low, false⟩),
  ("iam_create_role",
    ⟨"Create IAM Role", "iam:CreateRole", "cloud:iam:create-role", .high, false⟩),
  ("securityhub_get_findings",
    ⟨"Get Security Findings", "securityhub:GetFindings", "cloud:securityhub:read", .low,
      false⟩)]

/-- `ToolRegistry`, `tool_registry.py:58`: the available part of the catalog. -/
structure ToolRegistry where
  available : List (String × ToolSpec)

namespace ToolRegistry

/-- `ToolRegistry.__init__`, `tool_registry.py:61`. -/
def ofScopes (grantedScopes : List String) : ToolRegistry :=
  ⟨toolCatalog.filter fun entry ↦ entry.2.requiredScope ∈ grantedScopes⟩

/-- `available_tools`, `tool_registry.py:77`. -/
def availableTools (registry : ToolRegistry) : List String := registry.available.map Prod.fst

/-- `get`, `tool_registry.py:69`: the tool, or the message of `ToolNotAvailableError`. -/
def get (registry : ToolRegistry) (toolKey : String) : Except String ToolSpec :=
  match registry.available.lookup toolKey with
  | some spec => .ok spec
  | none =>
    let keys := ", ".intercalate (registry.availableTools.map fun key ↦ s!"'{key}'")
    .error s!"Tool '{toolKey}' is not available to this agent. Available: [{keys}]"

/-- A catalog entry is offered exactly when its scope is granted. -/
theorem mem_ofScopes_iff {entry : String × ToolSpec} (h : entry ∈ toolCatalog)
    (scopes : List String) :
    entry ∈ (ofScopes scopes).available ↔ entry.2.requiredScope ∈ scopes := by
  simp [ofScopes, h]

private theorem lookup_eq_some_of_mem {entries : List (String × ToolSpec)} {key : String}
    {spec : ToolSpec} (hk : (entries.map Prod.fst).Nodup) (h : (key, spec) ∈ entries) :
    entries.lookup key = some spec := by
  induction entries with
  | nil => cases h
  | cons entry entries ih =>
    obtain ⟨k, s⟩ := entry
    rw [List.map_cons, List.nodup_cons] at hk
    rw [List.lookup_cons]
    cases List.mem_cons.mp h with
    | inl he =>
      cases he
      simp
    | inr hm =>
      have hn : key ≠ k := by
        rintro rfl
        exact hk.1 (List.mem_map.mpr ⟨(key, spec), hm, rfl⟩)
      rw [beq_eq_false_iff_ne.mpr hn]
      exact ih hk.2 hm

private theorem catalog_keys_nodup : (toolCatalog.map Prod.fst).Nodup := by decide

/-- A tool is returned exactly when it is a catalog entry whose scope is granted. -/
theorem get_ofScopes_eq_ok_iff (scopes : List String) (key : String) (spec : ToolSpec) :
    (ofScopes scopes).get key = .ok spec ↔
      (key, spec) ∈ toolCatalog ∧ spec.requiredScope ∈ scopes := by
  have hm : (key, spec) ∈ (ofScopes scopes).available ↔
      (key, spec) ∈ toolCatalog ∧ spec.requiredScope ∈ scopes := by
    simp [ofScopes]
  rw [← hm, get]
  constructor
  · intro h
    split at h
    · next hl =>
      cases h
      obtain ⟨before, after, he, -⟩ := List.lookup_eq_some_iff.mp hl
      exact he ▸ List.mem_append_right before List.mem_cons_self
    · cases h
  · intro h
    have hk : ((ofScopes scopes).available.map Prod.fst).Nodup :=
      catalog_keys_nodup.sublist (List.filter_sublist.map _)
    rw [lookup_eq_some_of_mem hk h]

end ToolRegistry
end NhiSentinel.Agents
