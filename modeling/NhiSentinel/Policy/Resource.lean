import NhiSentinel.Base.Cedar

/-!
# The resource policies

The two policy files under `policy/cedar` as terms, the entities they are evaluated over,
and what they decide against the table their comments document. Membership of a string in
a list of strings is a type error, so the policies that ask for it drop out.
-/

namespace NhiSentinel.Policy.Resource
open NhiSentinel.Cedar

/-! ### Requests and entities -/

/-- What a resource policy is asked about: an agent, an action and a tagged resource. -/
structure Question where
  agentId : String
  agentType : String
  scopes : List String
  action : String
  resourceId : String
  attributes : List (String × String)

namespace Question

/-- The agent that asks. -/
def principal (x : Question) : EntityUID := ⟨"NHI::Agent", x.agentId⟩

/-- The resource that is asked for, as an entity of a type. -/
def resource (x : Question) (resourceType : String) : EntityUID := ⟨resourceType, x.resourceId⟩

/-- The request of `evaluate`, `cedar_evaluator.py:103`. -/
def request (x : Question) (resourceType : String) : Request where
  principal := x.principal
  action := ⟨"NHI::Action", x.action⟩
  resource := x.resource resourceType

/-- `_build_entities`, `cedar_evaluator.py:121`. -/
def entities (x : Question) (resourceType : String) : Entities := [
  (x.principal, {
    attrs := [
      ("agent_type", .prim (.string x.agentType)),
      ("scopes", .set (x.scopes.map Prim.string).toFinset)]
    ancestors := [] }),
  (x.resource resourceType, {
    attrs := x.attributes.map fun kv ↦ (kv.1, .prim (.string kv.2))
    ancestors := [] })]

/-- The value of a tag. -/
def tag (x : Question) (key : String) : Option String := x.attributes.lookup key

end Question

/-! ### Policy files -/

/-- `NHI::Action::"name"`. -/
def action (name : String) : EntityUID := ⟨"NHI::Action", name⟩

/-- `[NHI::Action::"a", …]` -/
def actions (names : List String) : Scope := .mem (names.map action)

/-- `["s", "t"]` -/
def strings (ss : List String) : Expr := .set (ss.map Prim.string)

/-- A policy on agents and on resources of one type. -/
def onType (effect : Effect) (action : Scope) (resourceType : String) (condition : Expr) :
    Policy where
  effect := effect
  principal := .is "NHI::Agent"
  action := action
  resource := .is resourceType
  condition := condition

/-- `s3_resource_policy.cedar:15`. -/
def infraAgentReads : Policy :=
  onType .permit (actions ["s3:ListBuckets", "s3:GetObject"]) "NHI::S3Bucket"
    (.and (.eq (.ofPrincipal "agent_type") (.str "InfraAgent"))
      (.mem (.ofResource "DataClassification") (strings ["public", "internal"])))

/-- `s3_resource_policy.cedar:28`. -/
def dataAgentAccesses : Policy :=
  onType .permit (actions ["s3:GetObject", "s3:PutObject", "s3:ListBuckets"]) "NHI::S3Bucket"
    (.and (.eq (.ofPrincipal "agent_type") (.str "DataAgent"))
      (.mem (.ofResource "DataClassification") (strings ["public", "internal"])))

/-- `s3_resource_policy.cedar:46`. -/
def forbidSensitive : Policy :=
  onType .forbid .any "NHI::S3Bucket"
    (.mem (.ofResource "DataClassification") (strings ["confidential", "restricted"]))

/-- `s3_resource_policy.cedar:59`. -/
def forbidProd : Policy :=
  onType .forbid .any "NHI::S3Bucket" (.eq (.ofResource "Environment") (.str "prod"))

/-- `s3_resource_policy.cedar`. -/
def s3ResourcePolicy : List Policy :=
  [infraAgentReads, dataAgentAccesses, forbidSensitive, forbidProd]

/-- `iam_resource_policy.cedar:15`. -/
def provisionerCreatesRoles : Policy :=
  onType .permit (.eq (action "iam:CreateRole")) "NHI::IAMRole"
    (.and
      (.and (.eq (.ofPrincipal "agent_type") (.str "ProvisionerAgent"))
        (.eq (.ofResource "managed_by") (.str "nhi-sentinel")))
      (.ne (.ofResource "template_name") (.str "")))

/-- `iam_resource_policy.cedar:29`. -/
def agentsListRoles : Policy :=
  onType .permit (.eq (action "iam:ListRoles")) "NHI::IAMRole"
    (.mem (.ofPrincipal "agent_type") (strings ["InfraAgent", "SecOpsAgent"]))

/-- `iam_resource_policy.cedar:41`. -/
def forbidDataAgent : Policy :=
  onType .forbid .any "NHI::IAMRole" (.eq (.ofPrincipal "agent_type") (.str "DataAgent"))

/-- A policy that forbids actions to every agent on everything. -/
def forbidActions (names : List String) : Policy where
  effect := .forbid
  principal := .is "NHI::Agent"
  action := actions names
  resource := .any
  condition := .lit (.bool true)

/-- `iam_resource_policy.cedar:53`. -/
def forbidPolicyDocuments : Policy :=
  forbidActions ["iam:CreatePolicy", "iam:PutUserPolicy", "iam:AttachUserPolicy"]

/-- `iam_resource_policy.cedar:66`. -/
def forbidAdministration : Policy :=
  forbidActions ["iam:CreateUser", "iam:DeleteUser", "iam:UpdateAssumeRolePolicy"]

/-- `iam_resource_policy.cedar`. -/
def iamResourcePolicy : List Policy :=
  [provisionerCreatesRoles, agentsListRoles, forbidDataAgent, forbidPolicyDocuments,
    forbidAdministration]

/-- The decision of the S3 file on a bucket. -/
def s3Decision (x : Question) : Decision :=
  authorize s3ResourcePolicy (x.request "NHI::S3Bucket") (x.entities "NHI::S3Bucket")

/-- The decision of the IAM file on a role. -/
def iamDecision (x : Question) : Decision :=
  authorize iamResourcePolicy (x.request "NHI::IAMRole") (x.entities "NHI::IAMRole")

/-! ### The documented table -/

/-- Readable and writable buckets: public or internal, and not of production. -/
def OpenBucket (x : Question) : Prop :=
  (x.tag "DataClassification" = some "public" ∨ x.tag "DataClassification" = some "internal") ∧
    x.tag "Environment" ≠ some "prod"

/-- The rows of the S3 table. -/
def S3Table (x : Question) : Prop :=
  OpenBucket x ∧
    ((x.agentType = "InfraAgent" ∧ (x.action = "s3:ListBuckets" ∨ x.action = "s3:GetObject")) ∨
      (x.agentType = "DataAgent" ∧
        (x.action = "s3:GetObject" ∨ x.action = "s3:PutObject" ∨ x.action = "s3:ListBuckets")))

/-- The row of role creation. -/
def CreatesRole (x : Question) : Prop :=
  x.agentType = "ProvisionerAgent" ∧ x.action = "iam:CreateRole" ∧
    x.tag "managed_by" = some "nhi-sentinel" ∧ ∃ t, x.tag "template_name" = some t ∧ t ≠ ""

/-- The row of role listing. -/
def ListsRoles (x : Question) : Prop :=
  x.action = "iam:ListRoles" ∧ (x.agentType = "InfraAgent" ∨ x.agentType = "SecOpsAgent")

/-- Each file decides its table. -/
structure Documented (x : Question) : Prop where
  s3 : s3Decision x = .allow ↔ S3Table x
  iam : iamDecision x = .allow ↔ CreatesRole x ∨ ListsRoles x

/-! ### Attributes -/

section Attributes

variable (x : Question) {resourceType : String}

private theorem lookup_map_string (attributes : List (String × String)) (key : String) :
    (attributes.map fun kv ↦ (kv.1, Value.prim (.string kv.2))).lookup key =
      (attributes.lookup key).map fun s ↦ .prim (.string s) := by
  induction attributes with
  | nil => rfl
  | cons kv rest ih =>
    obtain ⟨k, s⟩ := kv
    rw [List.map_cons, List.lookup_cons, List.lookup_cons, ih]
    cases key == k <;> rfl

/-- The agent's type is in the store. -/
theorem evaluate_agentType :
    evaluate (x.request resourceType) (x.entities resourceType) (.ofPrincipal "agent_type") =
      .ok (.prim (.string x.agentType)) := by
  have h : (x.entities resourceType).lookup ((x.request resourceType).get .principal) =
      some {
        attrs := [
          ("agent_type", .prim (.string x.agentType)),
          ("scopes", .set (x.scopes.map Prim.string).toFinset)]
        ancestors := [] } := by
    simp [Question.entities, Request.get, Question.request]
  rw [Expr.ofPrincipal, evaluate_getAttr_var h]
  rfl

/-- A tag of the resource is an attribute, and a missing one an error. -/
theorem evaluate_tag (hr : resourceType ≠ "NHI::Agent") (key : String) :
    evaluate (x.request resourceType) (x.entities resourceType) (.ofResource key) =
      (x.tag key).elim (.error .attrDoesNotExist) fun s ↦ .ok (.prim (.string s)) := by
  have h : (x.entities resourceType).lookup ((x.request resourceType).get .resource) =
      some {
        attrs := x.attributes.map fun kv ↦ (kv.1, .prim (.string kv.2))
        ancestors := [] } := by
    have hn : (x.resource resourceType == x.principal) = false := by
      rw [beq_eq_false_iff_ne]
      intro he
      exact hr (congrArg EntityUID.type he)
    simp [Question.entities, Request.get, Question.request, List.lookup_cons, hn]
  rw [Expr.ofResource, evaluate_getAttr_var h]
  dsimp only
  rw [lookup_map_string, Question.tag]
  cases x.attributes.lookup key <;> rfl

/-- An attribute of the resource is the tag of that name. -/
theorem evaluate_tag_eq_iff (hr : resourceType ≠ "NHI::Agent") (key s : String) :
    evaluate (x.request resourceType) (x.entities resourceType) (.ofResource key) =
        .ok (.prim (.string s)) ↔ x.tag key = some s := by
  rw [evaluate_tag x hr]
  cases x.tag key <;> simp

/-- No tag is in a list of strings. -/
theorem evaluate_tag_mem (hr : resourceType ≠ "NHI::Agent") (key : String) (e : Expr) :
    evaluate (x.request resourceType) (x.entities resourceType) (.mem (.ofResource key) e) ≠
      .ok (.prim (.bool true)) := by
  intro h
  obtain ⟨uid, hu⟩ := entity_of_evaluate_mem h
  rw [evaluate_tag x hr] at hu
  cases ht : x.tag key <;> simp [ht] at hu

/-- No agent type is in a list of strings. -/
theorem evaluate_agentType_mem (e : Expr) :
    evaluate (x.request resourceType) (x.entities resourceType)
      (.mem (.ofPrincipal "agent_type") e) ≠ .ok (.prim (.bool true)) := by
  intro h
  obtain ⟨uid, hu⟩ := entity_of_evaluate_mem h
  rw [evaluate_agentType] at hu
  simp at hu

end Attributes

/-! ### Decisions -/

/-- The S3 file permits nothing: both of its permissions ask for a tag in a list. -/
theorem s3Decision_eq_deny (x : Question) : s3Decision x = .deny := by
  have hb : "NHI::S3Bucket" ≠ "NHI::Agent" := by decide
  apply authorize_eq_deny_of_not_permitted
  intro p hp he
  rw [← Bool.not_eq_true, Policy.satisfied_iff]
  rintro ⟨-, hc⟩
  simp only [s3ResourcePolicy, List.mem_cons, List.not_mem_nil, or_false] at hp
  rcases hp with rfl | rfl | rfl | rfl
  · exact evaluate_tag_mem x hb _ _ (evaluate_and_true_iff.mp hc).2
  · exact evaluate_tag_mem x hb _ _ (evaluate_and_true_iff.mp hc).2
  · cases he
  · cases he

/-- The permission to create roles is the row of the table. -/
theorem satisfied_provisionerCreatesRoles (x : Question) :
    provisionerCreatesRoles.satisfied (x.request "NHI::IAMRole") (x.entities "NHI::IAMRole") =
      true ↔ CreatesRole x := by
  have hr : "NHI::IAMRole" ≠ "NHI::Agent" := by decide
  have ha : provisionerCreatesRoles.applies (x.request "NHI::IAMRole")
      (x.entities "NHI::IAMRole") = true ↔ x.action = "iam:CreateRole" := by
    simp [provisionerCreatesRoles, onType, Policy.applies, Scope.matches, Question.request,
      Question.principal, Question.resource, action]
  have ht : (∃ v, evaluate (x.request "NHI::IAMRole") (x.entities "NHI::IAMRole")
      (.ofResource "template_name") = .ok v ∧ v ≠ .prim (.string "")) ↔
      ∃ t, x.tag "template_name" = some t ∧ t ≠ "" := by
    rw [evaluate_tag x hr]
    cases x.tag "template_name" <;> simp
  rw [Policy.satisfied_iff, ha]
  show _ ∧ evaluate _ _ (.and (.and (.eq _ _) (.eq _ _)) (.ne _ _)) = _ ↔ _
  rw [evaluate_and_true_iff, evaluate_and_true_iff, evaluate_eq_str_true_iff,
    evaluate_eq_str_true_iff, evaluate_ne_str_true_iff, evaluate_agentType,
    evaluate_tag_eq_iff x hr, ht, CreatesRole]
  simp only [Except.ok.injEq, Value.prim.injEq, Prim.string.injEq]
  constructor
  · rintro ⟨hc, ⟨hp, hm⟩, hn⟩
    exact ⟨hp, hc, hm, hn⟩
  · rintro ⟨hp, hc, hm, hn⟩
    exact ⟨hc, ⟨hp, hm⟩, hn⟩

/-- A prohibition of actions applies to those actions. -/
theorem mem_of_applies_forbidActions {x : Question} {names : List String}
    {resourceType : String} (h : (forbidActions names).applies (x.request resourceType)
      (x.entities resourceType) = true) : x.action ∈ names := by
  have hf : ∀ kv ∈ x.entities resourceType, kv.2.ancestors = [] := by
    simp [Question.entities]
  simpa [forbidActions, actions, action, Policy.applies, Scope.matches, Question.request,
    Question.principal, inEntity_of_flat hf] using h

/-- The prohibitions of the IAM file leave role creation by a provisioner alone. -/
theorem not_forbidden_of_createsRole {x : Question} (h : CreatesRole x) {p : Policy}
    (hp : p ∈ iamResourcePolicy) (he : p.effect = .forbid) :
    p.satisfied (x.request "NHI::IAMRole") (x.entities "NHI::IAMRole") = false := by
  obtain ⟨ht, ha, -, -⟩ := h
  rw [← Bool.not_eq_true, Policy.satisfied_iff]
  rintro ⟨hs, hc⟩
  simp only [iamResourcePolicy, List.mem_cons, List.not_mem_nil, or_false] at hp
  rcases hp with rfl | rfl | rfl | rfl | rfl
  · cases he
  · cases he
  · have hd := evaluate_eq_str_true_iff.mp hc
    rw [evaluate_agentType, ht] at hd
    simp at hd
  · have hm := mem_of_applies_forbidActions hs
    rw [ha] at hm
    revert hm
    decide
  · have hm := mem_of_applies_forbidActions hs
    rw [ha] at hm
    revert hm
    decide

/-- The IAM file allows role creation as documented and nothing else: the permission to
list roles asks for an agent type in a list. -/
theorem iamDecision_eq_allow_iff (x : Question) : iamDecision x = .allow ↔ CreatesRole x := by
  rw [iamDecision, authorize_eq_allow_iff]
  constructor
  · rintro ⟨⟨p, hp, he, hs⟩, -⟩
    simp only [iamResourcePolicy, List.mem_cons, List.not_mem_nil, or_false] at hp
    rcases hp with rfl | rfl | rfl | rfl | rfl
    · exact (satisfied_provisionerCreatesRoles x).mp hs
    · exact absurd ((Policy.satisfied_iff _).mp hs).2 (evaluate_agentType_mem x _)
    · cases he
    · cases he
    · cases he
  · intro h
    exact ⟨⟨_, List.mem_cons_self, rfl, (satisfied_provisionerCreatesRoles x).mpr h⟩,
      fun p hp he ↦ not_forbidden_of_createsRole h hp he⟩

/-- The files decide their table on every request but those of the S3 table and the listing
of roles, which they deny. -/
theorem documented_iff (x : Question) : Documented x ↔ ¬ S3Table x ∧ ¬ ListsRoles x := by
  have hs : s3Decision x ≠ .allow := by
    rw [s3Decision_eq_deny]
    decide
  have hx : ListsRoles x → ¬ CreatesRole x := by
    rintro ⟨ha, -⟩ ⟨-, hc, -⟩
    rw [ha] at hc
    revert hc
    decide
  constructor
  · intro h
    exact ⟨fun ht ↦ hs (h.s3.mpr ht),
      fun hl ↦ hx hl ((iamDecision_eq_allow_iff x).mp (h.iam.mpr (.inr hl)))⟩
  · rintro ⟨ht, hl⟩
    constructor
    · exact ⟨fun h ↦ absurd h hs, fun h ↦ absurd h ht⟩
    · rw [iamDecision_eq_allow_iff]
      exact ⟨.inl, fun h ↦ h.resolve_right hl⟩

/-- An infrastructure agent reading an object of an internal bucket of staging. -/
def internalRead : Question where
  agentId := "agent-infra-001"
  agentType := "InfraAgent"
  scopes := ["cloud:s3:read"]
  action := "s3:GetObject"
  resourceId := "arn:aws:s3:::reports/summary.csv"
  attributes := [("DataClassification", "internal"), ("Environment", "staging")]

/-- The S3 file denies a read that its table permits. -/
theorem internalRead_denied :
    S3Table internalRead ∧ s3Decision internalRead = .deny ∧ ¬ ∀ x, Documented x := by
  have ht : S3Table internalRead :=
    ⟨⟨.inr rfl, by decide⟩, .inl ⟨rfl, .inr rfl⟩⟩
  exact ⟨ht, s3Decision_eq_deny _, fun h ↦ ((documented_iff _).mp (h _)).1 ht⟩

end NhiSentinel.Policy.Resource
