import NhiSentinel.Agents.S3Handlers
import NhiSentinel.Base.Calls
import NhiSentinel.Base.Python
import NhiSentinel.Identity.ManifestSchema

/-!
# The tool handlers

The handlers of the four agents under `agents/` as programs over the client library of the
cloud, with the objects that the library returns. Logging is left out.
-/

namespace NhiSentinel.Agents
open NhiSentinel.Base NhiSentinel.Identity

/-! ### The cloud -/

/-- A tag of a resource. -/
structure Tag where
  key : String
  value : String

/-- An instance as `describe_instances` returns it. -/
structure Instance where
  instanceId : String
  state : String
  instanceType : String
  tags : List Tag

/-- A security group as `describe_security_groups` returns it, with the numbers of its rules. -/
structure SecurityGroup where
  groupId : String
  groupName : String
  description : String
  ingressRules : Nat
  egressRules : Nat

/-- A role as `list_roles` returns it. -/
structure CloudRole where
  roleName : String
  arn : String
  createDate : Nat
  tags : List Tag

/-- The calls that leave a handler. The trust policy of a role is the document of its text. -/
inductive CloudCall where
  | s3 (c : S3Call)
  /-- `boto3.client`, for a service other than S3. -/
  | client (service region : String)
  | listBuckets
  | getBucketTagging (bucket : String)
  | describeInstances
  | describeSecurityGroups
  | listRoles
  | createRole (roleName : Value) (assumeRolePolicyDocument : Value) (tags : List (String × Value))
  | getFindings (maxResults : Nat)

/-- What a call is answered. -/
@[reducible] def CloudCall.Reply : CloudCall → Type
  | s3 c => c.Reply
  | client .. => Except String Unit
  | listBuckets => Except String (List String)
  | getBucketTagging _ => Except String (List Tag)
  | describeInstances => Except String (List (List Instance))
  | describeSecurityGroups => Except String (List SecurityGroup)
  | listRoles => Except String (List CloudRole)
  | createRole .. => Except String String
  | getFindings _ => Except String (List Value)

/-- A call together with its reply. -/
abbrev CloudEvent := Sigma CloudCall.Reply

/-- A tool handler; exceptions by class name and text. -/
abbrev CloudHandler := Py AgentState (String × String) CloudCall CloudCall.Reply

/-- What the handlers of an agent are constructed with: its region and the templates of
`policy/templates/iam_role_templates.yaml`. -/
structure CloudSetting where
  region : String
  s3 : S3Client
  runtime : Runtime
  templates : List (String × Value)

/-- Call the client library for a reply of the given type. -/
def callCloud {α : Type} (c : CloudCall) (h : c.Reply = Except String α) : CloudHandler α := do
  let reply ← Py.ask c
  Py.ofExcept ((cast h reply).mapError (·, ""))

/-- A handler that only accesses objects. -/
def ofS3 {α : Type} (handler : Handler α) : CloudHandler α := fun state ↦
  (handler state).embed .s3 fun _ reply ↦ reply

/-- The client of a service. -/
def connectTo (setting : CloudSetting) (service : String) : CloudHandler Unit :=
  callCloud (.client service setting.region) rfl

/-- The tags of a resource as a dictionary. -/
def tagDict (tags : List Tag) : List (String × Value) :=
  tags.foldl (fun dict tag ↦ Value.setMember dict tag.key (.str tag.value)) []

/-- A result that lists something under a name, with its length. -/
def listed (name : String) (items : List Value) : ToolResult :=
  .dict [(.str name, .arr items), (.str "count", .int items.length)]

/-! ### InfraAgent -/

/-- `_handle_ec2_describe`, `infra_agent/agent.py:31`. -/
def handleEc2Describe (setting : CloudSetting) : CloudHandler ToolResult := do
  connectTo setting "ec2"
  let reservations ← callCloud .describeInstances rfl
  pure (listed "instances" (reservations.flatten.map fun i ↦ .obj [
    ("instance_id", .str i.instanceId),
    ("state", .str i.state),
    ("instance_type", .str i.instanceType),
    ("tags", .obj (tagDict i.tags))]))

/-- `_handle_ec2_describe_sg`, `infra_agent/agent.py:47`. -/
def handleEc2DescribeSg (setting : CloudSetting) : CloudHandler ToolResult := do
  connectTo setting "ec2"
  let groups ← callCloud .describeSecurityGroups rfl
  pure (listed "security_groups" (groups.map fun sg ↦ .obj [
    ("group_id", .str sg.groupId),
    ("group_name", .str sg.groupName),
    ("description", .str sg.description)]))

/-- `_handle_s3_list_buckets`, `infra_agent/agent.py:61`. -/
def handleS3ListBuckets (setting : CloudSetting) : CloudHandler ToolResult := do
  ofS3 (S3.connect setting.region)
  let buckets ← callCloud .listBuckets rfl
  pure (listed "buckets" (buckets.map .str))

/-! ### DataAgent -/

/-- Whether the tags give a bucket a classification that the agent operates on,
`data_agent/agent.py:43`. -/
def isAccessible (tags : List (String × Value)) : Bool :=
  tags.lookup "DataClassification" = some (.str "public") ∨
    tags.lookup "DataClassification" = some (.str "internal")

/-- The tags of a reply; none where they could not be read. -/
def tagsOf : Except String (List Tag) → List (String × Value)
  | .ok tagSet => tagDict tagSet
  | .error _ => []

/-- The tags of a bucket, `data_agent/agent.py:37–41`. -/
def bucketTags (bucket : String) : CloudHandler (List (String × Value)) := do
  let reply : Except String (List Tag) ← Py.ask (CloudCall.getBucketTagging bucket)
  pure (tagsOf reply)

/-- The loop over the buckets, `data_agent/agent.py:36–44`. -/
def accessibleBuckets : List String → CloudHandler (List Value)
  | [] => pure []
  | bucket :: rest => do
    let tags ← bucketTags bucket
    let buckets ← accessibleBuckets rest
    pure (if isAccessible tags then .obj [("name", .str bucket), ("tags", .obj tags)] :: buckets
      else buckets)

/-- `_handle_s3_list`, `data_agent/agent.py:32`. -/
def handleS3List (setting : CloudSetting) : CloudHandler ToolResult := do
  ofS3 (S3.connect setting.region)
  let names ← callCloud .listBuckets rfl
  let buckets ← accessibleBuckets names
  pure (listed "buckets" buckets)

/-! ### SecOpsAgent -/

/-- The finding that stands in where SecurityHub is not available, `secops_agent/agent.py:41`. -/
def syntheticFinding : Value := .obj [
  ("Id", .str "finding-001"),
  ("Title", .str "S3 bucket has public read access"),
  ("Severity", .obj [("Label", .str "HIGH")]),
  ("ProductArn", .str "arn:aws:securityhub:us-east-1::product/aws/securityhub"),
  ("GeneratorId", .str "aws-foundational-security-s3")]

/-- `_handle_securityhub_findings`, `secops_agent/agent.py:32`. -/
def handleSecurityhubFindings (setting : CloudSetting) : CloudHandler ToolResult := do
  let findings ← Py.handle
    (do
      connectTo setting "securityhub"
      callCloud (.getFindings 50) rfl)
    fun _ ↦ pure [syntheticFinding]
  pure (listed "findings" findings)

/-- `_handle_describe_sgs`, `secops_agent/agent.py:54`. -/
def handleDescribeSgs (setting : CloudSetting) : CloudHandler ToolResult := do
  connectTo setting "ec2"
  let groups ← callCloud .describeSecurityGroups rfl
  pure (listed "security_groups" (groups.map fun sg ↦ .obj [
    ("group_id", .str sg.groupId),
    ("group_name", .str sg.groupName),
    ("ingress_rules", .int sg.ingressRules),
    ("egress_rules", .int sg.egressRules),
    ("potentially_permissive", .bool (5 < sg.ingressRules))]))

/-- `_handle_iam_list_roles`, `secops_agent/agent.py:72`. -/
def handleIamListRoles (setting : CloudSetting) : CloudHandler ToolResult := do
  connectTo setting "iam"
  let roles ← callCloud .listRoles rfl
  pure (listed "roles" (roles.map fun r ↦ .obj [
    ("role_name", .str r.roleName),
    ("arn", .str r.arn),
    ("create_date", .str (Python.isoformat r.createDate))]))

/-! ### ProvisionerAgent -/

/-- The approved template of a name, `provisioner_agent/agent.py:52–60`, or the exception that
there is none. -/
def approvedTemplate (setting : CloudSetting) (templateName : Value) :
    Except (String × String) (String × Value) :=
  let available := Python.str setting.runtime (.arr (setting.templates.map fun t ↦ .str t.1))
  let missing (name : String) : Except (String × String) (String × Value) :=
    .error ("ValueError", s!"Template '{name}' not in approved templates. Available: {available}")
  match templateName with
  | .str name =>
    match setting.templates.lookup name with
    | some template => .ok (name, template)
    | none => missing name
  | .arr _ => .error ("TypeError", "unhashable type: 'list'")
  | .obj _ => .error ("TypeError", "unhashable type: 'dict'")
  | v => missing (Python.str setting.runtime v)

/-- The trust policy of a template that has none, `provisioner_agent/agent.py:63`. -/
def defaultTrustPolicy : Value := .obj [
  ("Version", .str "2012-10-17"),
  ("Statement", .arr [.obj [
    ("Effect", .str "Allow"),
    ("Principal", .obj [("Service", .str "ec2.amazonaws.com")]),
    ("Action", .str "sts:AssumeRole")]])]

/-- The trust policy of a template as a document, `provisioner_agent/agent.py:63`. -/
def assumeRolePolicy (template : Value) : Except (String × String) Value :=
  match template with
  | .obj kvs =>
    let document := (kvs.lookup "assume_role_policy_document").getD defaultTrustPolicy
    if document.isJson then .ok document else .error ("TypeError", "")
  | _ => .error ("AttributeError", "")

/-- The tags of a role that is created, `provisioner_agent/agent.py:76`. -/
def roleTags (templateName : String) (ticketRef : Value) : List (String × Value) := [
  ("ManagedBy", .str "nhi-sentinel"),
  ("Template", .str templateName),
  ("TicketRef", ticketRef)]

/-- `_handle_create_role`, `provisioner_agent/agent.py:47`. -/
def handleCreateRole (setting : CloudSetting) : CloudHandler ToolResult := do
  let context := (← Py.read).context
  let requested := (context.lookup "template_name").getD .null
  if requested.truthy then do
    let (templateName, template) ← Py.ofExcept (approvedTemplate setting requested)
    let roleName := (context.lookup "role_name").getD (.str s!"nhi-provisioned-{templateName}")
    let document ← Py.ofExcept (assumeRolePolicy template)
    connectTo setting "iam"
    let tags := roleTags templateName ((context.lookup "ticket_ref").getD (.str ""))
    let roleArn ← callCloud (.createRole roleName document tags) rfl
    pure (.dict [
      (.str "role_name", roleName),
      (.str "role_arn", .str roleArn),
      (.str "template", .str templateName)])
  else Py.raise ("ValueError", "ProvisionerAgent requires 'template_name' in context")

/-- Whether a role is tagged as one of the agent's, `provisioner_agent/agent.py:91`. -/
def isManaged (role : CloudRole) : Bool :=
  role.tags.any fun tag ↦ tag.key = "ManagedBy" ∧ tag.value = "nhi-sentinel"

/-- `_handle_list_roles`, `provisioner_agent/agent.py:87`. -/
def handleListRoles (setting : CloudSetting) : CloudHandler ToolResult := do
  connectTo setting "iam"
  let roles ← callCloud .listRoles rfl
  pure (listed "roles" ((roles.filter isManaged).map fun r ↦ .str r.roleName))

/-! ### Agents -/

/-- `_get_tool_handlers` of each agent. -/
def toolHandlers (setting : CloudSetting) : AgentType → List (String × CloudHandler ToolResult)
  | .infra => [
    ("ec2_describe_instances", handleEc2Describe setting),
    ("ec2_describe_security_groups", handleEc2DescribeSg setting),
    ("s3_list_buckets", handleS3ListBuckets setting),
    ("s3_get_object", ofS3 (handleS3GetObject setting.s3 setting.region))]
  | .data => [
    ("s3_list_buckets", handleS3List setting),
    ("s3_get_object", ofS3 (handleS3Get setting.s3 setting.region)),
    ("s3_put_object", ofS3 (handleS3Put setting.s3 setting.region))]
  | .secops => [
    ("securityhub_get_findings", handleSecurityhubFindings setting),
    ("ec2_describe_security_groups", handleDescribeSgs setting),
    ("iam_list_roles", handleIamListRoles setting)]
  | .provisioner => [
    ("iam_create_role", handleCreateRole setting),
    ("iam_list_roles", handleListRoles setting)]

end NhiSentinel.Agents
