import NhiSentinel.Agents.Handlers
import NhiSentinel.Agents.Trail

/-!
# What reaches the cloud

The operations that the handlers of an agent ask the cloud for, against the action that the
enforcement point was asked about.
-/

namespace NhiSentinel.Agents
open NhiSentinel.Base NhiSentinel.Pep NhiSentinel.Identity

/-- The operation that a call asks a service for, as the actions of the policies are written. -/
def CloudCall.operation? : CloudCall → Option String
  | s3 (.client _) | client .. => none
  | s3 (.getObject ..) => some "s3:GetObject"
  | s3 (.putObject ..) => some "s3:PutObject"
  | listBuckets => some "s3:ListBuckets"
  | getBucketTagging _ => some "s3:GetBucketTagging"
  | describeInstances => some "ec2:DescribeInstances"
  | describeSecurityGroups => some "ec2:DescribeSecurityGroups"
  | listRoles => some "iam:ListRoles"
  | createRole .. => some "iam:CreateRole"
  | getFindings _ => some "securityhub:GetFindings"

/-- The object that a call accesses. -/
def CloudCall.object? : CloudCall → Option (String × String)
  | s3 (.getObject bucket key) | s3 (.putObject bucket key _) => some (bucket, key)
  | _ => none

/-- A role is created as an approved template has it, and tagged so. -/
structure FromTemplate (setting : CloudSetting) (context : List (String × Value))
    (document : Value) (tags : List (String × Value)) : Prop where
  approved : ∃ name template, context.lookup "template_name" = some (.str name) ∧
    setting.templates.lookup name = some template ∧ assumeRolePolicy template = .ok document ∧
      tags.lookup "Template" = some (.str name)
  managed : tags.lookup "ManagedBy" = some (.str "nhi-sentinel")

/-- What may be called for an action: its operation, on the object that the handlers split the
resource into, and for a role what a template has. The tags of buckets may be read where buckets
are listed. -/
structure Confined (setting : CloudSetting) (action resourceArn : String)
    (context : List (String × Value)) (c : CloudCall) : Prop where
  operation : ∀ op, c.operation? = some op →
    op = action ∨ action = "s3:ListBuckets" ∧ op = "s3:GetBucketTagging"
  object : ∀ bucket key, c.object? = some (bucket, key) → S3.parts resourceArn = [bucket, key]
  role : ∀ roleName document tags, c = .createRole roleName document tags →
    FromTemplate setting context document tags

/-- What the handler of a tool may call in a state. -/
def Within (setting : CloudSetting) (spec : ToolSpec) (state : AgentState) : CloudCall → Prop :=
  Confined setting spec.action state.resourceArn state.context

section
variable {setting : CloudSetting} {spec : ToolSpec} {state : AgentState} {c : CloudCall}

/-- A call that accesses no object and creates no role. -/
theorem confined_of_operation (ho : c.object? = none)
    (hr : ∀ roleName document tags, c ≠ .createRole roleName document tags)
    (hop : ∀ op, c.operation? = some op →
      op = spec.action ∨ spec.action = "s3:ListBuckets" ∧ op = "s3:GetBucketTagging") :
    Within setting spec state c where
  operation := hop
  object bucket key h := by cases ho.symm.trans h
  role roleName document tags h := absurd h (hr roleName document tags)

private theorem confined_client (service region : String) :
    Within setting spec state (.client service region) :=
  confined_of_operation rfl nofun nofun

private theorem confined_s3Client (region : String) :
    Within setting spec state (.s3 (.client region)) :=
  confined_of_operation rfl nofun nofun

/-! ### Handlers -/

section
variable {P : CloudCall → Prop}

private theorem calls_callCloud {α : Type} {h : c.Reply = Except String α} (hc : P c) :
    (callCloud c h).Calls P state :=
  ⟨hc, fun _ ↦ Py.calls_ofExcept _⟩

private theorem calls_callCloud_bind {α β : Type} {h : c.Reply = Except String α}
    {f : α → CloudHandler β}
    (hc : P c) (hf : ∀ a, (f a).Calls P state) : (callCloud c h >>= f).Calls P state := by
  refine (calls_callCloud hc).bind fun t a s' hr ↦ ?_
  obtain ⟨reply, u, -, hx⟩ := Py.run_ask_bind.mp hr
  obtain ⟨-, -, rfl⟩ := Py.run_ofExcept.mp hx
  exact hf a

/-- A handler that only accesses objects, by what its runs call. -/
theorem calls_ofS3 {α : Type} {handler : Handler α}
    (h : ∀ t out state', Py.Run handler state t out state' → ∀ e ∈ t, P (.s3 e.1)) :
    (ofS3 handler).Calls P state := by
  refine Prog.Calls.embed _ _ (Prog.calls_of_runs ?_ fun t a hr ↦ h t a.1 a.2 hr)
  intro c
  cases c <;> exact .error ""

private theorem calls_connect_bind {β : Type} {f : Unit → CloudHandler β} {region : String}
    (hc : P (.s3 (.client region))) (hf : ∀ a, (f a).Calls P state) :
    (ofS3 (S3.connect region) >>= f).Calls P state := by
  have hm : (ofS3 (S3.connect region)).Calls P state := by
    refine calls_ofS3 fun t out state' hr e he ↦ ?_
    obtain ⟨made, u, rfl, hx⟩ := Py.run_ask_bind.mp hr
    obtain ⟨rfl, -, -⟩ := Py.run_ofExcept.mp hx
    rw [List.mem_singleton.mp he]
    exact hc
  refine hm.bind fun t a s' hr ↦ ?_
  obtain ⟨u, hu, -⟩ := Prog.run_embed _ _ hr
  obtain ⟨made, _, -, hx⟩ := Py.run_ask_bind.mp hu
  obtain ⟨-, -, rfl⟩ := Py.run_ofExcept.mp hx
  exact hf a

end

/-- An object handler asks for one operation. -/
def Operates (op : String) (c : S3Call) : Prop :=
  ∀ op', (CloudCall.s3 c).operation? = some op' → op' = op

private theorem calls_locate {purpose : String} {P : S3Call → Prop} :
    (S3.locate purpose).Calls P state := by
  rw [S3.locate, Py.calls_read_bind]
  split <;> trivial

private theorem calls_get {s3 : S3Client} {region lengthKey : String} :
    (S3.get s3 region lengthKey).Calls (Operates "s3:GetObject") state := by
  have hv {bucket key : String} {s : AgentState} :
      (S3.validate s3 bucket key).Calls (Operates "s3:GetObject") s := by
    unfold S3.validate
    split <;> trivial
  refine calls_locate.bind fun t a s hr ↦ ?_
  refine Py.Calls.bind (Py.Calls.bind (Py.calls_ask.mpr nofun) fun _ _ _ _ ↦ Py.calls_ofExcept _)
    fun _ _ _ _ ↦ hv.bind fun _ _ _ _ ↦ ?_
  refine Py.Calls.bind (Py.calls_ask.mpr ?_) fun _ _ _ _ ↦ Py.Calls.bind (Py.calls_ofExcept _)
    fun _ _ _ _ ↦ trivial
  rintro op' ⟨⟩
  rfl

private theorem calls_put {s3 : S3Client} {region : String} :
    (handleS3Put s3 region).Calls (Operates "s3:PutObject") state := by
  have hv {bucket key : String} {s : AgentState} :
      (S3.validate s3 bucket key).Calls (Operates "s3:PutObject") s := by
    unfold S3.validate
    split <;> trivial
  refine calls_locate.bind fun t a s hr ↦ Py.calls_read_bind.mpr ?_
  refine Py.calls_ofExcept_bind.mpr fun payload _ ↦ ?_
  refine Py.Calls.bind (Py.Calls.bind (Py.calls_ask.mpr nofun) fun _ _ _ _ ↦ Py.calls_ofExcept _)
    fun _ _ _ _ ↦ hv.bind fun _ _ _ _ ↦ ?_
  refine Py.Calls.bind (Py.calls_ask.mpr ?_) fun _ _ _ _ ↦ Py.Calls.bind (Py.calls_ofExcept _)
    fun _ _ _ _ ↦ Py.Calls.bind (Py.calls_ofExcept _) fun _ _ _ _ ↦ trivial
  rintro op' ⟨⟩
  rfl

/-- A handler that accesses objects keeps to the one that its resource splits into. -/
theorem confined_of_touches {handler : Handler ToolResult} {s3 : S3Client}
    (hop : handler.Calls (Operates spec.action) state)
    (h : ∀ t out state', Py.Run handler state t out state' → S3.Touches s3 state t out) :
    (ofS3 handler).Calls (Within setting spec state) state := by
  refine calls_ofS3 fun t out state' hr e he ↦ ?_
  have ho := hop.of_run hr e he
  obtain ⟨c, reply⟩ := e
  refine ⟨fun op h ↦ .inl (ho op h), fun bucket key hb ↦ ?_, nofun⟩
  refine ((h t out state' hr).only _ he bucket key ?_).1
  cases c with
  | client => cases hb
  | getObject | putObject => exact hb

/-- A call for the operation of the tool that accesses no object and creates no role. -/
theorem confined_of_eq (hop : c.operation? = some spec.action) (ho : c.object? = none)
    (hr : ∀ roleName document tags, c ≠ .createRole roleName document tags) :
    Within setting spec state c :=
  confined_of_operation ho hr fun _ h ↦ .inl (Option.some.inj (h.symm.trans hop))

/-- A handler that makes a client and one such call. -/
theorem confined_single {α : Type} {service : String} {h : c.Reply = Except String α}
    {f : α → ToolResult} (hc : Within setting spec state c) :
    (do connectTo setting service
        let a ← callCloud c h
        pure (f a) : CloudHandler ToolResult).Calls (Within setting spec state) state :=
  calls_callCloud_bind (confined_client _ _) fun _ ↦ calls_callCloud_bind hc fun _ ↦ trivial

private theorem confined_accessibleBuckets (ha : spec.action = "s3:ListBuckets")
    (buckets : List String) :
    (accessibleBuckets buckets).Calls (Within setting spec state) state := by
  induction buckets with
  | nil => trivial
  | cons bucket rest ih =>
    have hc : Within setting spec state (.getBucketTagging bucket) :=
      confined_of_operation rfl nofun fun op h ↦ .inr ⟨ha, by cases h; rfl⟩
    have hb : (bucketTags bucket).Calls (Within setting spec state) state :=
      ⟨hc, fun _ ↦ trivial⟩
    refine hb.bind fun t tags s hr ↦ ?_
    obtain ⟨reply, u, -, hx⟩ := Py.run_ask_bind.mp hr
    obtain ⟨-, -, rfl⟩ := Py.run_pure.mp hx
    exact ih.bind fun _ _ _ _ ↦ trivial

private theorem approvedTemplate_ok {requested template : Value} {name : String}
    (h : approvedTemplate setting requested = .ok (name, template)) :
    requested = .str name ∧ setting.templates.lookup name = some template := by
  cases requested with
  | str s =>
    simp only [approvedTemplate] at h
    split at h
    · next t ht =>
      cases h
      exact ⟨rfl, ht⟩
    · cases h
  | _ => cases h

/-- A role is created from an approved template only. -/
theorem confined_createRole (ha : spec.action = "iam:CreateRole") :
    (handleCreateRole setting).Calls (Within setting spec state) state := by
  refine Py.calls_read_bind.mpr ?_
  dsimp only
  split
  swap
  · trivial
  next hr =>
  refine Py.calls_ofExcept_bind.mpr fun ⟨name, template⟩ ht ↦ ?_
  obtain ⟨hn, ht⟩ := approvedTemplate_ok ht
  refine Py.calls_ofExcept_bind.mpr fun document hd ↦ ?_
  refine calls_callCloud_bind (confined_client _ _) fun _ ↦
    calls_callCloud_bind ⟨fun op h ↦ .inl ?_, nofun, ?_⟩ fun _ ↦ trivial
  · cases h
    exact ha.symm
  · rintro roleName document tags ⟨⟩
    refine ⟨⟨name, template, ?_, ht, hd, rfl⟩, rfl⟩
    cases hl : state.context.lookup "template_name" with
    | none =>
      rw [hl] at hn
      cases hn
    | some v =>
      rw [hl] at hn
      exact congrArg some hn

private theorem confined_listBuckets (ha : spec.action = "s3:ListBuckets") :
    Within setting spec state .listBuckets :=
  confined_of_eq (congrArg some ha.symm) rfl nofun

/-- Findings are asked for once; an exception is not. -/
theorem confined_findings (ha : spec.action = "securityhub:GetFindings") :
    (handleSecurityhubFindings setting).Calls (Within setting spec state) state := by
  have hc : Within setting spec state (.getFindings 50) :=
    confined_of_eq (congrArg some ha.symm) rfl nofun
  refine Py.Calls.bind (Py.Calls.handle ?_ fun _ _ _ _ ↦ Py.calls_pure _) fun _ _ _ _ ↦ trivial
  exact calls_callCloud_bind (confined_client _ _) fun _ ↦ calls_callCloud hc

end

/-- A tool of the catalog is what the catalog has under its key. -/
theorem action_of_mem {key action : String} {spec : ToolSpec} (h : (key, spec) ∈ toolCatalog)
    (ha : (toolCatalog.lookup key).map ToolSpec.action = some action) : spec.action = action := by
  have hl : ∀ entry ∈ toolCatalog, toolCatalog.lookup entry.1 = some entry.2 := by decide
  rw [hl _ h] at ha
  exact Option.some.inj ha

/-- Every handler of an agent keeps to the operation of its tool. -/
theorem toolHandlers_confined {setting : CloudSetting} {kind : AgentType} {key : String}
    {handler : CloudHandler ToolResult} (hm : (key, handler) ∈ toolHandlers setting kind)
    {spec : ToolSpec} (hs : (key, spec) ∈ toolCatalog) (state : AgentState) :
    handler.Calls (Within setting spec state) state := by
  have action {a : String} (ha : (toolCatalog.lookup key).map ToolSpec.action = some a) :=
    action_of_mem hs ha
  have operation {a : String} (ha : (toolCatalog.lookup key).map ToolSpec.action = some a) :
      some a = some spec.action := congrArg some (action ha).symm
  cases kind with
  | infra =>
    simp only [toolHandlers, List.mem_cons, List.not_mem_nil, or_false, Prod.mk.injEq] at hm
    rcases hm with ⟨rfl, rfl⟩ | ⟨rfl, rfl⟩ | ⟨rfl, rfl⟩ | ⟨rfl, rfl⟩
    · exact confined_single (confined_of_eq (operation (by decide)) rfl nofun)
    · exact confined_single (confined_of_eq (operation (by decide)) rfl nofun)
    · refine calls_connect_bind (confined_s3Client _) fun _ ↦ ?_
      exact calls_callCloud_bind (confined_listBuckets (action (by decide))) fun _ ↦ trivial
    · refine confined_of_touches ?_ fun _ _ _ h ↦ S3.touches_get h
      rw [action (a := "s3:GetObject") (by decide)]
      exact calls_get
  | data =>
    simp only [toolHandlers, List.mem_cons, List.not_mem_nil, or_false, Prod.mk.injEq] at hm
    rcases hm with ⟨rfl, rfl⟩ | ⟨rfl, rfl⟩ | ⟨rfl, rfl⟩
    · refine calls_connect_bind (confined_s3Client _) fun _ ↦ ?_
      refine calls_callCloud_bind (confined_listBuckets (action (by decide))) fun names ↦ ?_
      exact (confined_accessibleBuckets (action (by decide)) names).bind fun _ _ _ _ ↦ trivial
    · refine confined_of_touches ?_ fun _ _ _ h ↦ S3.touches_get h
      rw [action (a := "s3:GetObject") (by decide)]
      exact calls_get
    · refine confined_of_touches ?_ fun _ _ _ h ↦ S3.touches_put h
      rw [action (a := "s3:PutObject") (by decide)]
      exact calls_put
  | secops =>
    simp only [toolHandlers, List.mem_cons, List.not_mem_nil, or_false, Prod.mk.injEq] at hm
    rcases hm with ⟨rfl, rfl⟩ | ⟨rfl, rfl⟩ | ⟨rfl, rfl⟩
    · exact confined_findings (action (by decide))
    · exact confined_single (confined_of_eq (operation (by decide)) rfl nofun)
    · exact confined_single (confined_of_eq (operation (by decide)) rfl nofun)
  | provisioner =>
    simp only [toolHandlers, List.mem_cons, List.not_mem_nil, or_false, Prod.mk.injEq] at hm
    rcases hm with ⟨rfl, rfl⟩ | ⟨rfl, rfl⟩
    · exact confined_createRole (action (by decide))
    · exact confined_single (confined_of_eq (operation (by decide)) rfl nofun)

/-! ### Which buckets are listed -/

/-- The classification of a tag set is that of its last tag of this name. -/
theorem lookup_tagDict (tags : List Tag) (key : String) :
    (tagDict tags).lookup key =
      (tags.reverse.find? fun tag ↦ tag.key = key).map fun tag ↦ .str tag.value := by
  have go (dict : List (String × Value)) :
      (tags.foldl (fun dict tag ↦ Value.setMember dict tag.key (.str tag.value)) dict).lookup key =
        ((tags.reverse.find? fun tag ↦ tag.key = key).map fun tag ↦ Value.str tag.value).or
          (dict.lookup key) := by
    induction tags generalizing dict with
    | nil => rfl
    | cons tag tags ih =>
      rw [List.foldl_cons, ih, List.reverse_cons, List.find?_append]
      cases hf : tags.reverse.find? fun tag ↦ tag.key = key with
      | some tag' => rfl
      | none =>
        by_cases hk : tag.key = key
        · subst hk
          rw [Value.lookup_setMember_self]
          simp
        · rw [Value.lookup_setMember_ne _ _ (Ne.symm hk)]
          simp [hk]
  rw [tagDict, go]
  exact Option.or_none

/-- The classification that a reply to the reading of tags gives a bucket. -/
def classification? : Except String (List Tag) → Option String
  | .ok tags => (tags.reverse.find? fun tag ↦ tag.key = "DataClassification").map Tag.value
  | .error _ => none

private theorem isAccessible_tagsOf_iff (reply : Except String (List Tag)) :
    isAccessible (tagsOf reply) = true ↔
      classification? reply = some "public" ∨ classification? reply = some "internal" := by
  cases reply with
  | error cls => simp [tagsOf, isAccessible, classification?]
  | ok tags =>
    rw [tagsOf, isAccessible, decide_eq_true_iff, lookup_tagDict, classification?]
    cases tags.reverse.find? fun tag ↦ tag.key = "DataClassification" with
    | none => simp
    | some tag => simp

/-- The calls for the tags of buckets. -/
def taggings (tagged : List (String × Except String (List Tag))) : List CloudEvent :=
  tagged.map fun b ↦ ⟨.getBucketTagging b.1, b.2⟩

/-- A bucket as it is listed. -/
def bucketEntry (b : String × Except String (List Tag)) : Value :=
  .obj [("name", .str b.1), ("tags", .obj (tagsOf b.2))]

/-- The buckets that a listing shows. -/
def accessible (tagged : List (String × Except String (List Tag))) : List Value :=
  (tagged.filter fun b ↦ isAccessible (tagsOf b.2)).map bucketEntry

private theorem accessibleBuckets_run {names : List String} {state state' : AgentState}
    {t : List CloudEvent} {out : Except (String × String) (List Value)}
    (h : Py.Run (accessibleBuckets names) state t out state') :
    ∃ tagged, tagged.map Prod.fst = names ∧ t = taggings tagged ∧
      out = .ok (accessible tagged) := by
  induction names generalizing t out state' with
  | nil =>
    obtain ⟨rfl, rfl, -⟩ := Py.run_pure.mp h
    exact ⟨[], rfl, rfl, rfl⟩
  | cons bucket rest ih =>
    obtain ⟨reply, u, rfl, hu⟩ := Py.run_ask_bind_bind.mp h
    rw [Py.run_pure_bind, Py.run_bind] at hu
    rcases hu with ⟨e, hv, -⟩ | ⟨buckets, v, w, s, rfl, hv, hw⟩
    · obtain ⟨_, -, -, hx⟩ := ih hv
      cases hx
    · obtain ⟨tagged, rfl, rfl, hx⟩ := ih hv
      cases hx
      obtain ⟨rfl, rfl, -⟩ := Py.run_pure.mp hw
      refine ⟨(bucket, reply) :: tagged, rfl, by rw [List.append_nil]; rfl, ?_⟩
      have ha : accessible ((bucket, reply) :: tagged) =
          if isAccessible (tagsOf reply) then bucketEntry (bucket, reply) :: accessible tagged
          else accessible tagged := by
        unfold accessible
        rw [List.filter_cons]
        split <;> rfl
      rw [ha]
      rfl

/-- A bucket is accessible when it is classified as public or internal. -/
theorem mem_accessible_iff {tagged : List (String × Except String (List Tag))}
    {b : String × Except String (List Tag)} (hb : b ∈ tagged) :
    bucketEntry b ∈ accessible tagged ↔
      classification? b.2 = some "public" ∨ classification? b.2 = some "internal" := by
  rw [accessible, List.mem_map, ← isAccessible_tagsOf_iff]
  constructor
  · rintro ⟨b', hm, he⟩
    have ht : tagsOf b'.2 = tagsOf b.2 := by
      have hv : (bucketEntry b').get? "tags" = (bucketEntry b).get? "tags" := by rw [he]
      exact Value.obj.inj (Option.some.inj hv)
    rw [← ht]
    exact (List.mem_filter.mp hm).2
  · intro ha
    exact ⟨b, List.mem_filter.mpr ⟨hb, ha⟩, rfl⟩

private theorem run_callCloud_ok {α : Type} {c : CloudCall} {h : c.Reply = Except String α}
    {state state' : AgentState} {t : List CloudEvent} {a : α}
    (hr : Py.Run (callCloud c h) state t (.ok a) state') :
    t = [⟨c, cast h.symm (.ok a)⟩] ∧ state' = state := by
  obtain ⟨reply, u, rfl, hx⟩ := Py.run_ask_bind.mp hr
  obtain ⟨rfl, hx, rfl⟩ := Py.run_ofExcept.mp hx
  refine ⟨?_, rfl⟩
  cases hc : cast h reply with
  | ok b =>
    rw [hc] at hx
    cases hx
    rw [← hc, cast_cast, cast_eq]
  | error cls =>
    rw [hc] at hx
    cases hx

private theorem run_connect_ok {region : String} {state state' : AgentState} {t : List CloudEvent}
    {a : Unit} (hr : Py.Run (ofS3 (S3.connect region)) state t (.ok a) state') :
    t = [⟨.s3 (.client region), .ok ()⟩] ∧ state' = state := by
  obtain ⟨u, hu, hf⟩ := Prog.run_embed _ _ hr
  obtain ⟨made, v, rfl, hx⟩ := Py.run_ask_bind.mp hu
  obtain ⟨rfl, hx, rfl⟩ := Py.run_ofExcept.mp hx
  cases made with
  | error cls => cases hx
  | ok =>
    cases hf with
    | cons hd hf =>
      cases hf
      obtain ⟨reply, rfl, rfl⟩ := hd
      exact ⟨rfl, rfl⟩

/-- The listing of the data agent: the tags of every bucket are read once, in order, and the
buckets whose last classification is public or internal are shown, with their tags. A bucket
whose tags cannot be read is not shown. -/
theorem handleS3List_exact {setting : CloudSetting} {state state' : AgentState}
    {t : List CloudEvent} {result : ToolResult}
    (h : Py.Run (handleS3List setting) state t (.ok result) state') :
    ∃ tagged, t = ⟨.s3 (.client setting.region), .ok ()⟩ ::
        ⟨.listBuckets, .ok (tagged.map Prod.fst)⟩ :: taggings tagged ∧
      result = listed "buckets" (accessible tagged) ∧
      ∀ b ∈ tagged, bucketEntry b ∈ accessible tagged ↔
        classification? b.2 = some "public" ∨ classification? b.2 = some "internal" := by
  rcases Py.run_bind.mp h with ⟨e, -, he⟩ | ⟨a, t₁, t₂, s₁, rfl, h₁, h₂⟩
  · cases he
  obtain ⟨rfl, rfl⟩ := run_connect_ok h₁
  rcases Py.run_bind.mp h₂ with ⟨e, -, he⟩ | ⟨names, t₃, t₄, s₂, rfl, h₃, h₄⟩
  · cases he
  obtain ⟨rfl, rfl⟩ := run_callCloud_ok h₃
  rcases Py.run_bind.mp h₄ with ⟨e, -, he⟩ | ⟨buckets, t₅, t₆, s₃, rfl, h₅, h₆⟩
  · cases he
  obtain ⟨tagged, rfl, rfl, hx⟩ := accessibleBuckets_run h₅
  cases hx
  obtain ⟨rfl, hx, -⟩ := Py.run_pure.mp h₆
  cases hx
  refine ⟨tagged, ?_, rfl, fun b ↦ mem_accessible_iff⟩
  rw [List.append_nil]
  rfl

/-- A setting without templates. -/
def plainSetting : CloudSetting := ⟨"us-east-1", S3.plainClient, asciiRuntime, []⟩

/-- A cloud with a public bucket and one whose tags cannot be read. -/
def twoBuckets : (c : CloudCall) → c.Reply
  | .s3 (.client _) => .ok ()
  | .s3 (.getObject ..) => .error "NoSuchKey"
  | .s3 (.putObject ..) => .error "AccessDenied"
  | .client .. => .ok ()
  | .listBuckets => .ok ["open", "closed"]
  | .getBucketTagging bucket =>
    if bucket = "open" then .ok [⟨"DataClassification", "public"⟩] else .error "AccessDenied"
  | .describeInstances => .ok []
  | .describeSecurityGroups => .ok []
  | .listRoles => .ok []
  | .createRole .. => .error "AccessDenied"
  | .getFindings _ => .ok []

/-- The public bucket is shown. -/
theorem handleS3List_exact_twoBuckets :
    ∃ t result tagged, Py.Run (handleS3List plainSetting) (S3.stateFor "*") t (.ok result)
        (S3.stateFor "*") ∧
      result = listed "buckets" (accessible tagged) ∧
        tagged.map Prod.fst = ["open", "closed"] := by
  have hr : Py.Run (handleS3List plainSetting) (S3.stateFor "*") _ _ _ :=
    Py.run_exec (fun _ ↦ twoBuckets) _ _
  obtain ⟨tagged, ht, hl, -⟩ := handleS3List_exact hr
  refine ⟨_, _, tagged, hr, hl, ?_⟩
  have hn := List.head_eq_of_cons_eq (List.tail_eq_of_cons_eq ht)
  exact (Except.ok.inj (eq_of_heq (Sigma.mk.inj hn).2)).symm

/-! ### Runs of an agent -/

/-- A call of a tool handler is carried out by a handler of the agent, with these calls. -/
def CarriedOut (setting : CloudSetting) (kind : AgentType) (call : HandlerCall)
    (u : List CloudEvent) : Prop :=
  ∃ handler out, (call.toolKey, handler) ∈ toolHandlers setting kind ∧
    Py.Run handler call.state u out call.left ∧
      match out with
      | .ok result => call.outcome = .ok result
      | .error _ => ∃ text, call.outcome = .error text

/-- A run of one of the four agents, with the calls of its handlers. -/
structure Performs {rt : Runtime} (setting : CloudSetting) (r : AgentRun rt)
    (u : List CloudEvent) : Prop where
  registry : ∃ scopes, r.agent.registry = .ofScopes scopes
  handlers : r.agent.toolHandlers = (toolHandlers setting r.agent.agentType).map Prod.fst
  calls : ∃ us, List.Forall₂ (CarriedOut setting r.agent.agentType) (handled r.trace) us ∧
    u = us.flatten

private theorem actionRequest?_resourceArn {agent : BaseAgent} {spec : ToolSpec}
    {state : AgentState}
    {request : ActionRequest} (h : actionRequest? agent spec state = some request) :
    request.resourceArn = state.resourceArn := by
  simp only [actionRequest?, Option.bind_eq_bind, Option.pure_def] at h
  split at h
  · simp only [Option.bind_some, Option.bind_eq_some_iff, Option.some.injEq] at h
    obtain ⟨_, -, rfl⟩ := h
    rfl
  · cases h

/-- The state that a handler is called in, after the enforcement of a request returned. -/
def AgentState.allowed (state : AgentState) (request : ActionRequest) (eventId : String) :
    AgentState :=
  { state.setContext "_action_request" request.dump with
    decision := some "ALLOW" }.setContext "_decision_event_id" (.str eventId)

/-- What a run adds to the context after the request leaves its other keys alone. -/
theorem AgentState.allowed_context (state : AgentState) (request : ActionRequest)
    (eventId : String) {key : String} (ha : key ≠ "_action_request")
    (hd : key ≠ "_decision_event_id") :
    (state.allowed request eventId).context.lookup key = state.context.lookup key :=
  (Value.lookup_setMember_ne _ _ hd).trans (Value.lookup_setMember_ne _ _ ha)

/-- A handler is called in the state that the enforcement of the run's request left, after it
returned. -/
theorem allowed_of_handled {rt : Runtime} {agent : BaseAgent} {s s' : Session}
    {t : List AgentEvent} {out : Except PyExn Unit} (h : Invoked rt agent s t out s')
    (hn : ∀ e ∈ enforcement t, raised? e ≠ some "ALLOW") {call : HandlerCall}
    (hm : call ∈ handled t) :
    ∃ token claims spec request p eventId, agent.registry.get s.state.toolKey = .ok spec ∧
      actionRequest? agent spec (s.state.withToken token claims) = some request ∧
      Py.Run (enforce rt) ⟨s.pep, request⟩ (enforcement t) (.ok ()) p ∧
      call.toolKey = s.state.toolKey ∧
      call.state = (s.state.withToken token claims).allowed request eventId := by
  cases h with
  | unfetched hf =>
    rw [hf.quiet.2] at hm
    cases hm
  | unchecked hf hc =>
    rw [handled_append, hf.quiet.2, hc.quiet.2] at hm
    cases hm
  | blocked hf hc =>
    rw [handled_append, handled_append, hf.quiet.2, hc.quiet.2] at hm
    cases hm
  | @executed t u v w s₁ s₂ s₃ _ hf hc eventId timestamp hr he ha =>
    obtain ⟨token, claims, rfl, -, hfe⟩ := hf.of_ok
    have hde : enforcement (decisionAudit agent s₂.state eventId timestamp) = [] := rfl
    have hve : enforcement v = [] := by cases he <;> rfl
    have hwe : enforcement w = [] := by cases ha <;> rfl
    have hu : enforcement (t ++ (u ++ (decisionAudit agent s₂.state eventId timestamp ++
        (v ++ w)))) = enforcement u := by
      simp [hfe, hde, hve, hwe]
    have hdh : handled (decisionAudit agent s₂.state eventId timestamp) = [] := rfl
    have hwh : handled w = [] := by cases ha <;> rfl
    rw [handled_append, handled_append, handled_append, handled_append, hf.quiet.2, hc.quiet.2,
      hdh, hwh, List.append_nil] at hm
    rw [hu] at hn ⊢
    have hn' : ∀ e, ofPep e ∈ u → raised? e ≠ some "ALLOW" := fun e he ↦
      hn e (List.mem_filterMap.mpr ⟨_, he, rfl⟩)
    obtain ⟨spec, request, x, p, hg, hq, hx, rfl, hs₂⟩ :=
      hc.of_allow ((routeAfterPolicy_eq_allowed_iff _).mp hr) hn'
    rw [enforcement_ofPep]
    rcases he.called with ⟨-, rfl, -⟩ | ⟨call', -, hk, hst, rfl, -⟩
    · cases hm
    · have hc' : handled [call'.event] = [call'] := rfl
      rw [List.nil_append, List.nil_append, List.nil_append, hc'] at hm
      cases List.mem_singleton.mp hm
      refine ⟨token, claims, spec, request, p, eventId, hg, hq, hx, ?_, ?_⟩
      · rw [hk, hs₂]
        rfl
      · rw [hst, hs₂]
        rfl

private theorem exists_carriedOut {setting : CloudSetting} {kind : AgentType}
    {calls : List HandlerCall} {us : List (List CloudEvent)}
    (h : List.Forall₂ (CarriedOut setting kind) calls us) {u : List CloudEvent} (hu : u ∈ us) :
    ∃ call ∈ calls, CarriedOut setting kind call u := by
  induction h with
  | nil => cases hu
  | @cons call u' calls us hc _ ih =>
    rcases List.mem_cons.mp hu with rfl | hu
    · exact ⟨call, List.mem_cons_self, hc⟩
    · obtain ⟨call', hm, hc'⟩ := ih hu
      exact ⟨call', List.mem_cons_of_mem _ hm, hc'⟩

/-- Whatever a run of an agent asks the cloud for goes back to the enforcement of its request: the
operation is the action of the request, but for the tags of buckets where these are listed, the
object is the one that the handlers split its resource into, and a role is created from the
template that its context names. -/
theorem cloud_calls_enforced {rt : Runtime} {setting : CloudSetting} {r : AgentRun rt}
    {u : List CloudEvent} (h : Performs setting r u)
    (hn : ∀ e ∈ enforcement r.trace, raised? e ≠ some "ALLOW") :
    ∀ e ∈ u, ∃ token claims spec request p,
      r.agent.registry.get r.args.toolKey = .ok spec ∧
      actionRequest? r.agent spec (r.args.initialState.withToken token claims) = some request ∧
      Py.Run (enforce rt) ⟨r.pep, request⟩ (enforcement r.trace) (.ok ()) p ∧
      Confined setting request.action request.resourceArn request.context e.1 := by
  obtain ⟨scopes, hscopes⟩ := h.registry
  obtain ⟨us, hus, rfl⟩ := h.calls
  intro e he
  obtain ⟨v, hv, he⟩ := List.mem_flatten.mp he
  obtain ⟨call, hcall, handler, out, hmem, hrun, -⟩ := exists_carriedOut hus hv
  obtain ⟨token, claims, spec, request, p, eventId, hg, hq, hx, hk, hs⟩ :=
    allowed_of_handled (invoke_run r.ran) hn hcall
  refine ⟨token, claims, spec, request, p, hg, hq, hx, ?_⟩
  have hcat : (call.toolKey, spec) ∈ toolCatalog := by
    have hg' : r.agent.registry.get r.args.toolKey = .ok spec := hg
    rw [hscopes, ToolRegistry.get_ofScopes_eq_ok_iff] at hg'
    rw [hk]
    exact hg'.1
  obtain ⟨-, ha, hctx⟩ := actionRequest?_eq_some hq
  have harn := actionRequest?_resourceArn hq
  have hw := (toolHandlers_confined hmem hcat call.state).of_run hrun e he
  rw [hs] at hw
  rw [ha, harn, hctx]
  refine ⟨hw.operation, hw.object, fun roleName document tags hc ↦ ?_⟩
  obtain ⟨⟨name, template, hname, ht⟩, hmanaged⟩ := hw.role roleName document tags hc
  refine ⟨⟨name, template, ?_, ht⟩, hmanaged⟩
  rw [← hname, AgentState.allowed_context _ _ _ (by decide) (by decide)]

/-! ### A reading -/

/-- An `InfraAgent` that may read objects. -/
def infraAgent : BaseAgent :=
  { readingAgent with toolHandlers := (toolHandlers plainSetting .infra).map Prod.fst }

/-- What its handler returns for an empty object. -/
def emptyObject : ToolResult := .dict [
  (.str "bucket", .str "bucket"),
  (.str "key", .str "key"),
  (.str "content", .str ""),
  (.str "size", .int 0)]

/-- A reading of that object. -/
def emptyObjectRun : AgentRun asciiRuntime :=
  .exec asciiRuntime (answering (decided "ALLOW") (.ok emptyObject)) infraAgent
    ⟨"http://localhost:8181", false⟩ objectArgs

/-- The calls of its handler. -/
def emptyObjectCalls : List CloudEvent := [
  ⟨.s3 (.client "us-east-1"), .ok ()⟩,
  ⟨.s3 (.getObject "bucket" "key"), .ok ""⟩]

private theorem run_embed_s3 {α : Type} {p : Prog S3Call S3Call.Reply α} {t : List S3Event}
    {a : α} (h : Prog.Run p t a) :
    Prog.Run (p.embed CloudCall.s3 fun _ reply ↦ reply)
      (t.map fun e ↦ (⟨.s3 e.1, e.2⟩ : CloudEvent)) a := by
  induction p generalizing t with
  | done b =>
    obtain ⟨rfl, rfl⟩ := Prog.run_done.mp h
    exact .refl _
  | call c k ih =>
    obtain ⟨reply, u, rfl, hk⟩ := Prog.run_call.mp h
    exact Prog.run_call.mpr ⟨reply, _, rfl, ih reply hk⟩

private theorem run_emptyObject {state : AgentState}
    (ha : state.resourceArn = "arn:aws:s3:::bucket/key") :
    Py.Run (handleS3GetObject S3.plainClient "us-east-1") state
      [⟨.client "us-east-1", .ok ()⟩, ⟨.getObject "bucket" "key", .ok ""⟩]
      (.ok emptyObject) state := by
  have hp : S3.parts state.resourceArn = ["bucket", "key"] := by
    rw [ha]
    decide
  have hl : Py.Run (S3.locate "") state [] (.ok ("bucket", "key")) state := by
    rw [S3.locate, Py.run_read_bind, hp]
    exact Py.run_pure.mpr ⟨rfl, rfl, rfl⟩
  refine Py.run_bind.mpr (.inr ⟨_, [], _, _, rfl, hl, ?_⟩)
  refine Py.run_ask_bind_bind.mpr ⟨.ok (), _, rfl, Py.run_ofExcept_ok_bind.mpr ?_⟩
  exact Py.run_ask_bind.mpr ⟨.ok "", _, rfl, Py.run_ofExcept_ok_bind.mpr
    (Py.run_pure.mpr ⟨rfl, rfl, rfl⟩)⟩

private theorem emptyObjectRun_performs :
    Performs plainSetting emptyObjectRun emptyObjectCalls := by
  refine ⟨⟨["cloud:s3:read"], rfl⟩, rfl, [emptyObjectCalls], ?_, rfl⟩
  obtain ⟨state, hs, ha⟩ : ∃ state, handled emptyObjectRun.trace =
      [⟨"s3_get_object", state, .ok emptyObject, state⟩] ∧
        state.resourceArn = "arn:aws:s3:::bucket/key" := ⟨_, rfl, rfl⟩
  rw [hs]
  refine .cons ⟨ofS3 (handleS3GetObject S3.plainClient "us-east-1"), .ok emptyObject, ?_,
    run_embed_s3 (run_emptyObject ha), rfl⟩ .nil
  exact List.mem_of_getElem? (i := 3) rfl

/-- The object that is read is that of the request. -/
theorem cloud_calls_enforced_reading :
    Performs plainSetting emptyObjectRun emptyObjectCalls ∧ ∃ request p,
      Py.Run (enforce asciiRuntime) ⟨emptyObjectRun.pep, request⟩
        (enforcement emptyObjectRun.trace) (.ok ()) p ∧
      Confined plainSetting request.action request.resourceArn request.context
        (.s3 (.getObject "bucket" "key")) := by
  refine ⟨emptyObjectRun_performs, ?_⟩
  have hn : ∀ e ∈ enforcement emptyObjectRun.trace, raised? e ≠ some "ALLOW" := by decide +kernel
  obtain ⟨token, claims, spec, request, p, -, -, hx, hc⟩ :=
    cloud_calls_enforced emptyObjectRun_performs hn ⟨.s3 (.getObject "bucket" "key"), .ok ""⟩
      (List.mem_cons_of_mem _ List.mem_cons_self)
  exact ⟨request, p, hx, hc⟩

end NhiSentinel.Agents
