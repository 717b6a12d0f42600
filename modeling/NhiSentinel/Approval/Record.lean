import NhiSentinel.Approval.Models
import NhiSentinel.Base.DateTime
import NhiSentinel.Base.JsonRead

/-!
# What is written of a request

A request is read back from its text as its JSON form, where the library keeps to its
documented behaviour on identifiers, dates and dictionaries. All but its context is as it was.
-/

namespace NhiSentinel.Approval
open NhiSentinel.Base NhiSentinel.Pep

/-- The canonical text of an identifier: groups of lower-case hexadecimal digits. -/
def canonicalUuid (s : String) : Bool :=
  (s.toList.splitOn '-').map List.length = [8, 4, 4, 4, 12] &&
    s.toList.all fun c ↦ c ∈ "-0123456789abcdef".toList

example : canonicalUuid "00000000-0000-4000-8000-000000000000" = true := by decide

/-- The documented behaviour of the validation library: a canonical identifier is read as it
is, a date is written as a text and read back from it, and what is written of a dictionary is its
JSON form. -/
structure Codec.Lawful (codec : Codec) : Prop where
  readUuid : ∀ s, canonicalUuid s = true → codec.readUuid (.str s) = some s
  writeDate : ∀ n, ∃ s, codec.writeDate n = .str s
  readDate : ∀ n ≤ Python.datetimeMax, codec.readDate (codec.writeDate n) = some n
  jsonDict : codec.jsonDict.Lawful

/-- A status is read back from its text. -/
theorem ApprovalStatus.ofText?_text (s : ApprovalStatus) : ofText? s.text = some s := by
  cases s <;> rfl

/-- A risk level is read back from its text. -/
theorem RiskLevel.ofText?_text (l : RiskLevel) : ofText? l.text = some l := by
  cases l <;> rfl

namespace ApprovalRequest

/-- A request as it is stored: a canonical identifier, dates in the range of `datetime`, a JSON
dictionary for the context. -/
structure WellFormed (r : ApprovalRequest) : Prop where
  requestId : canonicalUuid r.requestId = true
  requestedAt : r.requestedAt ≤ Python.datetimeMax
  expiresAt : r.expiresAt ≤ Python.datetimeMax
  dict : r.context.isDict = true
  json : r.context.isJson = true
  resolvedAt : ∀ n, r.resolvedAt = some n → n ≤ Python.datetimeMax

variable {codec : Codec} {r r' : ApprovalRequest} {json : String}

private theorem validateStrOrNone_dump (s : Option String) :
    validateStrOrNone (some ((s.map Value.str).getD .null)) = some s := by
  cases s <;> rfl

private theorem validateDateOrNone_dump (hc : codec.Lawful) {n : Option Nat}
    (h : ∀ m, n = some m → m ≤ Python.datetimeMax) :
    validateDateOrNone codec (some ((n.map codec.writeDate).getD .null)) = some n := by
  cases n with
  | none => rfl
  | some m =>
    obtain ⟨s, hs⟩ := hc.writeDate m
    have hr := hc.readDate m (h m rfl)
    simp only [Option.map_some, Option.getD_some]
    rw [hs] at hr ⊢
    simp only [validateDateOrNone, hr, Option.map_some]

/-- A request is read back from its document. -/
theorem validate?_dump (hc : codec.Lawful) (hr : r.WellFormed) :
    validate? codec (r.dump codec) = some r := by
  obtain ⟨kvs, hk, -⟩ := Value.exists_obj hr.dict hr.json
  have hid := hc.readUuid _ hr.requestId
  have hreq := hc.readDate _ hr.requestedAt
  have hexp := hc.readDate _ hr.expiresAt
  have happ := validateStrOrNone_dump r.approverIdentity
  have hres := validateDateOrNone_dump hc hr.resolvedAt
  have hctx : orDefault (.obj []) validateDict (some r.context) = some r.context := by
    rw [hk]
    rfl
  have hstatus : orDefault .pending (fun v ↦ (validateStr v).bind ApprovalStatus.ofText?)
      (some (.str r.status.text)) = some r.status := ApprovalStatus.ofText?_text _
  have hstr (s : String) : validateStr (.str s) = some s := rfl
  have hget (k : String) : (r.dump codec).get? k = _ := Value.get?_obj _ k
  simp only [validate?, hget, List.lookup_cons, String.reduceBEq, Option.bind_eq_bind,
    Option.bind_some, hid, hreq, hexp, happ, hres, hctx, hstatus, hstr, RiskLevel.ofText?_text,
    pure]

/-- No key is repeated in the document of a request. -/
theorem distinctKeys_dump (hc : codec.Lawful) (hr : r.WellFormed) :
    (r.dump codec).distinctKeys = true := by
  have hdate (n : Nat) : (codec.writeDate n).distinctKeys = true := by
    obtain ⟨s, hs⟩ := hc.writeDate n
    rw [hs]
    rfl
  have happ : ((r.approverIdentity.map Value.str).getD .null).distinctKeys = true := by
    cases r.approverIdentity <;> rfl
  have hres : ((r.resolvedAt.map codec.writeDate).getD .null).distinctKeys = true := by
    cases r.resolvedAt with
    | none => rfl
    | some n => exact hdate n
  have hctx : r.context.distinctKeys = true := by
    obtain ⟨kvs, hk, hd⟩ := Value.exists_obj hr.dict hr.json
    rw [hk]
    exact hd
  rw [dump, Value.distinctKeys]
  simp only [Value.distinctKeysMembers, hdate, happ, hres, hctx, Value.distinctKeys, Bool.and_true,
    List.map_cons, List.map_nil]
  decide

/-- Only the context has another form in JSON. -/
theorem jsonForm_eq_some_iff : r.jsonForm codec = some r' ↔
    ∃ kvs, codec.jsonDict r.context = some kvs ∧ r' = { r with context := .obj kvs } := by
  rw [jsonForm, Option.map_eq_some_iff]
  exact exists_congr fun kvs ↦ and_congr_right fun _ ↦ eq_comm

/-- The JSON form of a stored request is the request. -/
theorem jsonForm_of_json (hc : codec.Lawful) (hd : r.context.isDict = true)
    (hj : r.context.isJson = true) : r.jsonForm codec = some r := by
  obtain ⟨kvs, hk, -⟩ := Value.exists_obj hd hj
  rw [hk] at hd hj
  refine jsonForm_eq_some_iff.mpr ⟨kvs, hk ▸ hc.jsonDict.self kvs hd hj, ?_⟩
  rw [← hk]

/-- A request is written as its JSON form is. -/
theorem dumpJson_of_jsonForm (hc : codec.Lawful) (hf : r.jsonForm codec = some r') :
    r.dumpJson codec = r'.dumpJson codec := by
  obtain ⟨kvs, hk, he⟩ := jsonForm_eq_some_iff.mp hf
  have hf' : r'.jsonForm codec = some r' := by
    refine jsonForm_eq_some_iff.mpr ⟨kvs, ?_, ?_⟩
    · rw [he]
      exact hc.jsonDict.self_of_eq hk
    · rw [he]
  rw [dumpJson, dumpJson, hf, hf']

/-- A request is read back from its text. -/
theorem validateJson?_dumpJson (hc : codec.Lawful) (hr : r.WellFormed)
    (h : r.dumpJson codec = some json) : validateJson? codec json = some r := by
  rw [dumpJson, jsonForm_of_json hc hr.dict hr.json, Option.bind_some] at h
  obtain ⟨cs, hw, rfl⟩ := Option.map_eq_some_iff.mp h
  rw [validateJson?, Json.parse_write hw (distinctKeys_dump hc hr), Option.bind_some,
    validate?_dump hc hr]

/-- What can be read is not empty. -/
theorem ne_empty_of_validateJson? (h : validateJson? codec json = some r) : json ≠ "" := by
  rintro rfl
  cases h

/-- Whether a request can be written is a matter of its context. -/
theorem isSome_dumpJson (hc : codec.Lawful) (r : ApprovalRequest) :
    (r.dumpJson codec).isSome = (codec.jsonDict r.context).isSome := by
  have hdate (n : Nat) : ∃ cs, Json.write (codec.writeDate n) = some cs := by
    obtain ⟨s, hs⟩ := hc.writeDate n
    exact ⟨_, by rw [hs, Json.write]⟩
  have happ : ∃ cs, Json.write ((r.approverIdentity.map Value.str).getD .null) = some cs := by
    cases r.approverIdentity with
    | none => exact ⟨_, rfl⟩
    | some s => exact ⟨_, rfl⟩
  have hres : ∃ cs, Json.write ((r.resolvedAt.map codec.writeDate).getD .null) = some cs := by
    cases r.resolvedAt with
    | none => exact ⟨_, rfl⟩
    | some n => exact hdate n
  obtain ⟨as, ha⟩ := hdate r.requestedAt
  obtain ⟨bs, hb⟩ := hdate r.expiresAt
  obtain ⟨cs, hc'⟩ := happ
  obtain ⟨ds, hd⟩ := hres
  have hstr (s : String) : Json.write (.str s) = some (Json.writeString s) := by rw [Json.write]
  rw [dumpJson, jsonForm]
  cases hk : codec.jsonDict r.context with
  | none => rfl
  | some kvs =>
    obtain ⟨xs, hx⟩ := Option.isSome_iff_exists.mp
      ((Json.isSome_write (.obj kvs)).trans (hc.jsonDict.json _ _ hk).2)
    rw [Option.map_some, Option.bind_some, dump, Json.write, Option.isSome_map]
    simp [Json.writeMembers, hstr, ha, hb, hc', hd, hx]

end ApprovalRequest

/-! ### A codec that keeps to it -/

/-- The text that the library writes of a point in time in UTC. -/
def isoText (n : Nat) : String := { DateTime.utc n with utcoffset := none }.isoformat ++ "Z"

example : isoText 1709164800000042 = "2024-02-29T00:00:00.000042Z" := by decide

/-- Different points in time have different texts. -/
theorem isoText_injective : Function.Injective isoText := by
  intro m n h
  have ht := DateTime.isoformat_injective ((String.append_left_inj "Z").mp h)
  apply DateTime.utc_injective
  rw [DateTime.ext_iff] at ht ⊢
  exact ⟨ht.1, ht.2.1, ht.2.2.1, ht.2.2.2.1, ht.2.2.2.2.1, ht.2.2.2.2.2.1, ht.2.2.2.2.2.2.1, rfl⟩

mutual
/-- The value with a date written for every object that is no JSON. -/
def dated : Value → Value
  | .arr xs => .arr (datedElems xs)
  | .obj kvs => .obj (datedMembers kvs)
  | .other _ => .str (isoText 0)
  | v => v
/-- `dated` of every element. -/
def datedElems : List Value → List Value
  | [] => []
  | x :: xs => dated x :: datedElems xs
/-- `dated` of every member. -/
def datedMembers : List (String × Value) → List (String × Value)
  | [] => []
  | (k, x) :: kvs => (k, dated x) :: datedMembers kvs
end

private theorem map_fst_datedMembers (kvs : List (String × Value)) :
    (datedMembers kvs).map Prod.fst = kvs.map Prod.fst := by
  induction kvs with
  | nil => rfl
  | cons kv kvs ih =>
    obtain ⟨k, x⟩ := kv
    rw [datedMembers, List.map_cons, List.map_cons, ih]

mutual
private theorem dated_of_isJson : (v : Value) → v.isJson = true → dated v = v
  | .null, _ | .bool _, _ | .num _, _ | .str _, _ => rfl
  | .arr xs, h => congrArg Value.arr (datedElems_of_isJson xs h)
  | .obj kvs, h => congrArg Value.obj (datedMembers_of_isJson kvs h)
private theorem datedElems_of_isJson : (xs : List Value) → Value.isJsonElems xs = true →
    datedElems xs = xs
  | [], _ => rfl
  | x :: xs, h => by
    rw [Value.isJsonElems, Bool.and_eq_true] at h
    rw [datedElems, dated_of_isJson x h.1, datedElems_of_isJson xs h.2]
private theorem datedMembers_of_isJson : (kvs : List (String × Value)) →
    Value.isJsonMembers kvs = true → datedMembers kvs = kvs
  | [], _ => rfl
  | (k, x) :: kvs, h => by
    rw [Value.isJsonMembers, Bool.and_eq_true] at h
    rw [datedMembers, dated_of_isJson x h.1, datedMembers_of_isJson kvs h.2]
end

mutual
private theorem isJson_dated : (v : Value) → (dated v).isJson = true
  | .null | .bool _ | .num _ | .str _ | .other _ => rfl
  | .arr xs => isJsonElems_dated xs
  | .obj kvs => isJsonMembers_dated kvs
private theorem isJsonElems_dated : (xs : List Value) → Value.isJsonElems (datedElems xs) = true
  | [] => rfl
  | x :: xs => by
    rw [datedElems, Value.isJsonElems, isJson_dated x, isJsonElems_dated xs]
    rfl
private theorem isJsonMembers_dated : (kvs : List (String × Value)) →
    Value.isJsonMembers (datedMembers kvs) = true
  | [] => rfl
  | (k, x) :: kvs => by
    rw [datedMembers, Value.isJsonMembers, isJson_dated x, isJsonMembers_dated kvs]
    rfl
end

mutual
private theorem distinctKeys_dated : (v : Value) → (dated v).distinctKeys = v.distinctKeys
  | .null | .bool _ | .num _ | .str _ | .other _ => rfl
  | .arr xs => distinctKeysElems_dated xs
  | .obj kvs => by
    rw [dated, Value.distinctKeys, Value.distinctKeys, map_fst_datedMembers,
      distinctKeysMembers_dated kvs]
private theorem distinctKeysElems_dated : (xs : List Value) →
    Value.distinctKeysElems (datedElems xs) = Value.distinctKeysElems xs
  | [] => rfl
  | x :: xs => by
    rw [datedElems, Value.distinctKeysElems, Value.distinctKeysElems, distinctKeys_dated x,
      distinctKeysElems_dated xs]
private theorem distinctKeysMembers_dated : (kvs : List (String × Value)) →
    Value.distinctKeysMembers (datedMembers kvs) = Value.distinctKeysMembers kvs
  | [] => rfl
  | (k, x) :: kvs => by
    rw [datedMembers, Value.distinctKeysMembers, Value.distinctKeysMembers, distinctKeys_dated x,
      distinctKeysMembers_dated kvs]
end

/-- JSON as it is and the rest as dates; a dictionary whose keys are not texts is refused. -/
def isoDict : DictForm
  | .obj kvs => if (Value.obj kvs).isDict then some (datedMembers kvs) else none
  | _ => none

/-- Writing what is no JSON as dates is a lawful form of dictionaries. -/
theorem isoDict_lawful : isoDict.Lawful where
  self kvs hd hj := (if_pos hd).trans (congrArg some (datedMembers_of_isJson kvs hj))
  keys kvs kvs' h := by
    obtain ⟨-, ⟨⟩⟩ := Option.ite_none_right_eq_some.mp h
    exact map_fst_datedMembers kvs
  json v kvs h := by
    cases v with
    | obj kvs' =>
      obtain ⟨hd, rfl⟩ : (Value.obj kvs').isDict = true ∧ datedMembers kvs' = kvs := by
        simpa only [isoDict, Option.ite_none_right_eq_some, Option.some.injEq] using h
      exact ⟨(distinctKeys_dated (.obj kvs')).trans hd, isJsonMembers_dated kvs'⟩
    | _ => cases h

/-- Canonical identifiers, and dates in ISO form. -/
noncomputable def isoCodec : Codec where
  readUuid
    | .str s => if canonicalUuid s then some s else none
    | _ => none
  readDate
    | .str s => Function.partialInv isoText s
    | _ => none
  writeDate n := .str (isoText n)
  jsonDict := isoDict

/-- The codec with dates as texts is lawful. -/
theorem isoCodec_lawful : isoCodec.Lawful where
  readUuid _ h := if_pos h
  writeDate _ := ⟨_, rfl⟩
  readDate n _ := Function.partialInv_left isoText_injective n
  jsonDict := isoDict_lawful

end NhiSentinel.Approval
