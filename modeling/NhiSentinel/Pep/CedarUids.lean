import NhiSentinel.Base.CedarText
import NhiSentinel.Pep.CedarEvaluator

/-!
# The entities of a resource decision

An agent and a resource are named twice for the tool: as text in the request file, and as a type
with an identifier in the file of entities, where the attributes are found.
-/

namespace NhiSentinel.Pep.CedarEvaluator
open NhiSentinel.Base
open NhiSentinel.Cedar (EntityUID Lexer)

/-- The entity that a member of the request file names. -/
def requestUid? (lexer : Lexer) (doc : Value) (key : String) : Option EntityUID :=
  match doc.get? key with
  | some (.str text) => lexer.entity? text
  | _ => none

/-- The entity that a record of the file of entities is about. -/
def recordUid? (record : Value) : Option EntityUID :=
  match record.path? ["uid", "type"], record.path? ["uid", "id"] with
  | some (.str type), some (.str id) => some ⟨type, id⟩
  | _, _ => none

/-- The attributes that the file of entities has for an entity. -/
def attributes? (entities : Value) (uid : EntityUID) : Option Value :=
  (entities.elems.find? (recordUid? · = some uid)).bind (·.get? "attrs")

/-- The texts of a request name the entities of its file, and the attributes that are found for
the resource are those that were supplied. -/
structure NamesEntities (lexer : Lexer) (request : CedarRequest) : Prop where
  named : [requestUid? lexer (cedarRequestDoc request) "principal",
    requestUid? lexer (cedarRequestDoc request) "resource"] =
      (buildEntities request).elems.map recordUid?
  attributes : (requestUid? lexer (cedarRequestDoc request) "resource").bind
    (attributes? (buildEntities request)) =
      some (.obj (request.resource.attributes.map fun kv ↦ (kv.1, .str kv.2)))

variable {lexer : Lexer} {request : CedarRequest}

private theorem map_recordUid? : (buildEntities request).elems.map recordUid? = [
    some ⟨"NHI::Agent", request.principal.agentId⟩,
    some ⟨request.resource.resourceType, request.resource.resourceId⟩] := rfl

private theorem requestUid?_principal : requestUid? lexer (cedarRequestDoc request) "principal" =
    lexer.entity? (Cedar.entityText "NHI::Agent" request.principal.agentId) := rfl

private theorem requestUid?_resource : requestUid? lexer (cedarRequestDoc request) "resource" =
    lexer.entity?
      (Cedar.entityText request.resource.resourceType request.resource.resourceId) := rfl

private theorem attributes?_resource (h : request.resource.resourceType ≠ "NHI::Agent") :
    attributes? (buildEntities request)
      ⟨request.resource.resourceType, request.resource.resourceId⟩ =
        some (.obj (request.resource.attributes.map fun kv ↦ (kv.1, .str kv.2))) := by
  obtain ⟨agent, resource, he, ha, hr, hattrs⟩ : ∃ agent resource,
      (buildEntities request).elems = [agent, resource] ∧
      recordUid? agent = some ⟨"NHI::Agent", request.principal.agentId⟩ ∧
      recordUid? resource =
        some ⟨request.resource.resourceType, request.resource.resourceId⟩ ∧
      resource.get? "attrs" =
        some (.obj (request.resource.attributes.map fun kv ↦ (kv.1, .str kv.2))) :=
    ⟨_, _, rfl, rfl, rfl, rfl⟩
  rw [attributes?, he, List.find?_cons_of_neg, List.find?_cons_of_pos]
  · exact hattrs
  · exact decide_eq_true hr
  · rw [ha, decide_eq_true_eq]
    exact fun hu ↦ h (congrArg EntityUID.type (Option.some.inj hu)).symm

private theorem type_of_infer {action resourceType : String}
    (h : inferCedarResourceType action = some resourceType) :
    Cedar.isPath true resourceType.toList = true ∧ resourceType ≠ "NHI::Agent" := by
  rw [inferCedarResourceType] at h
  split at h
  · cases h
    decide
  · split at h
    · cases h
      decide
    · cases h

/-- The texts of a request name the entities of its file exactly when every character of the
agent's and of the resource's identifier stands for itself in a literal. -/
theorem namesEntities_iff {action : ActionRequest} {resourceType : String}
    (h : inferCedarResourceType action.action = some resourceType) :
    NamesEntities lexer (cedarRequest action resourceType) ↔
      (∀ c ∈ action.agentId.toList, lexer.plain c = true) ∧
        ∀ c ∈ action.resourceArn.toList, lexer.plain c = true := by
  obtain ⟨hpath, hne⟩ := type_of_infer h
  have hp := @Lexer.entity?_eq_some_iff lexer "NHI::Agent" action.agentId (by decide)
  have hr := @Lexer.entity?_eq_some_iff lexer resourceType action.resourceArn hpath
  rw [← hp, ← hr]
  constructor
  · intro hn
    have he := hn.named
    rw [requestUid?_principal, requestUid?_resource, map_recordUid?] at he
    exact ⟨(List.cons.inj he).1, (List.cons.inj (List.cons.inj he).2).1⟩
  · rintro ⟨h₁, h₂⟩
    refine ⟨?_, ?_⟩
    · rw [requestUid?_principal, requestUid?_resource, map_recordUid?]
      exact congrArg₂ (fun a b ↦ [a, b]) h₁ h₂
    · rw [requestUid?_resource]
      show (lexer.entity? (Cedar.entityText resourceType action.resourceArn)).bind _ = _
      rw [h₂]
      exact @attributes?_resource (cedarRequest action resourceType) hne

/-- A reading of an object whose key has a backslash. -/
def backslashRequest : ActionRequest where
  agentId := "agent-infra-001"
  agentType := "InfraAgent"
  tokenClaims := []
  action := "s3:GetObject"
  resourceArn := "arn:aws:s3:::bucket/a\\nb"
  taskId := "task-001"
  environment := "staging"
  sourceIp := "10.0.1.10"
  resourceTags := [("DataClassification", "restricted")]
  context := []

/-- The request is about an object with a line break in its key, and no attributes are found for
it. -/
theorem backslash_detached :
    requestUid? .standard (cedarRequestDoc (cedarRequest backslashRequest "NHI::S3Bucket"))
      "resource" = some ⟨"NHI::S3Bucket", "arn:aws:s3:::bucket/a\nb"⟩ ∧
    attributes? (buildEntities (cedarRequest backslashRequest "NHI::S3Bucket"))
      ⟨"NHI::S3Bucket", "arn:aws:s3:::bucket/a\nb"⟩ = none ∧
    ¬ NamesEntities .standard (cedarRequest backslashRequest "NHI::S3Bucket") := by
  have hr : requestUid? .standard (cedarRequestDoc (cedarRequest backslashRequest "NHI::S3Bucket"))
      "resource" = some ⟨"NHI::S3Bucket", "arn:aws:s3:::bucket/a\nb"⟩ := by
    decide +kernel
  refine ⟨hr, ?_, ?_⟩
  · rw [attributes?]
    decide +kernel
  · intro h
    have hn := h.named
    rw [hr, map_recordUid?] at hn
    have he := Option.some.inj (List.cons.inj (List.cons.inj hn).2).1
    revert he
    decide +kernel

/-- A backslash in the resource of a request, and what is read of it. -/
theorem namesEntities_iff_reading :
    NamesEntities .standard (cedarRequest { backslashRequest with
      resourceArn := "arn:aws:s3:::bucket/a" } "NHI::S3Bucket") ↔
      (∀ c ∈ "agent-infra-001".toList, Lexer.standard.plain c = true) ∧
        ∀ c ∈ "arn:aws:s3:::bucket/a".toList, Lexer.standard.plain c = true :=
  namesEntities_iff (by decide)

end NhiSentinel.Pep.CedarEvaluator
