import NhiSentinel.Agents.Agent
import NhiSentinel.Base.Replace

/-!
# The object handlers

The handlers of `agents/data_agent/agent.py` and `agents/infra_agent/agent.py` that read and
write S3 objects, and when the object they access is the one that the resource name names.
Logging is left out.
-/

namespace NhiSentinel.Agents
open NhiSentinel.Base

/-- What is written to an object: a text or a document as bytes, or a payload as it is. -/
inductive Payload where
  | ofJson (doc : Value)
  | ofText (text : String)
  | raw (v : Value)

/-- What the client library brings along: which buckets and keys pass its validation of
parameters, in particular no empty bucket, and the length of a payload. -/
structure S3Client where
  accepts : String → String → Bool
  accepts_empty : ∀ key, accepts "" key = false
  len : Payload → Except String Int

/-- The calls that leave a handler: the object calls are those that pass the validation. -/
inductive S3Call where
  /-- `boto3.client("s3", region_name=...)`. -/
  | client (region : String)
  /-- `get_object` and the reading of its body. -/
  | getObject (bucket key : String)
  | putObject (bucket key : String) (body : Payload)

/-- What a call is answered. -/
@[reducible] def S3Call.Reply : S3Call → Type
  | client _ => Except String Unit
  | getObject .. => Except String String
  | putObject .. => Except String Unit

/-- A call together with its reply. -/
abbrev S3Event := Sigma S3Call.Reply

/-- A tool handler; exceptions by class name and text. -/
abbrev Handler := Py AgentState (String × String) S3Call S3Call.Reply

namespace S3

/-- Call the environment. -/
def call (c : S3Call) : Handler c.Reply := Py.ask c

/-- The beginning of the name of an S3 object. -/
def arnPrefix : String := "arn:aws:s3:::"

/-- `resource_arn.replace("arn:aws:s3:::", "").split("/", 1)`. -/
def parts (resourceArn : String) : List String :=
  (Python.splitOnce '/' (Python.removeAll arnPrefix.toList resourceArn.toList)).map String.ofList

/-- Bucket and key of the resource, or a ValueError that says for what they were needed. -/
def locate (purpose : String) : Handler (String × String) := do
  let state ← Py.read
  match parts state.resourceArn with
  | [bucket, key] => pure (bucket, key)
  | _ => Py.raise ("ValueError", s!"Cannot parse S3 ARN{purpose}: {state.resourceArn}")

/-- The client of a region. -/
def connect (region : String) : Handler Unit := do
  let made : Except String Unit ← call (.client region)
  Py.ofExcept (made.mapError (·, ""))

/-- The validation of the parameters. -/
def validate (s3 : S3Client) (bucket key : String) : Handler Unit :=
  if s3.accepts bucket key then pure () else Py.raise ("ParamValidationError", "")

/-- An object is read, and reported with its length under some key. -/
def get (s3 : S3Client) (region lengthKey : String) : Handler ToolResult := do
  let (bucket, key) ← locate ""
  connect region
  validate s3 bucket key
  let resp : Except String String ← call (.getObject bucket key)
  let content ← Py.ofExcept (resp.mapError (·, ""))
  pure (.dict [
    (.str "bucket", .str bucket),
    (.str "key", .str key),
    (.str "content", .str content),
    (.str lengthKey, .int content.length)])

/-- `payload` as it is written, `data_agent/agent.py:66–70`. -/
def encode (payload : Value) : Except (String × String) Payload :=
  match payload with
  | .obj _ => if payload.isJson then .ok (.ofJson payload) else .error ("TypeError", "")
  | .str s => .ok (.ofText s)
  | v => .ok (.raw v)

end S3

open S3

/-- `InfraAgent._handle_s3_get_object`, `infra_agent/agent.py:68`. -/
def handleS3GetObject (s3 : S3Client) (region : String) : Handler ToolResult := get s3 region "size"

/-- `DataAgent._handle_s3_get`, `data_agent/agent.py:48`. -/
def handleS3Get (s3 : S3Client) (region : String) : Handler ToolResult := get s3 region "bytes"

/-- `DataAgent._handle_s3_put`, `data_agent/agent.py:59`. -/
def handleS3Put (s3 : S3Client) (region : String) : Handler ToolResult := do
  let (bucket, key) ← locate " for put"
  let state ← Py.read
  -- bytes are an object of which only the truth value is kept
  let payload ← Py.ofExcept (encode ((state.context.lookup "payload").getD (.other false)))
  connect region
  validate s3 bucket key
  let resp : Except String Unit ← call (.putObject bucket key payload)
  Py.ofExcept (resp.mapError (·, ""))
  let bytesWritten ← Py.ofExcept ((s3.len payload).mapError (·, ""))
  pure (.dict [
    (.str "bucket", .str bucket),
    (.str "key", .str key),
    (.str "bytes_written", .int bytesWritten)])

/-- The handlers that access an object. -/
def objectHandlers (s3 : S3Client) (region : String) : List (Handler ToolResult) :=
  [handleS3GetObject s3 region, handleS3Get s3 region, handleS3Put s3 region]

namespace S3

/-! ### Names -/

/-- The name of an object in a bucket, whose name is not empty and has no slash. -/
structure Names (resourceArn bucket key : String) : Prop where
  arn : resourceArn = arnPrefix ++ bucket ++ "/" ++ key
  bucket_ne : bucket ≠ ""
  no_slash : '/' ∉ bucket.toList

/-- The object that a call accesses. -/
def object? : S3Event → Option (String × String)
  | ⟨.client _, _⟩ => none
  | ⟨.getObject bucket key, _⟩ => some (bucket, key)
  | ⟨.putObject bucket key _, _⟩ => some (bucket, key)

/-- The handlers access the named object and no other, they have accessed it when they return,
and a name is parsed into its bucket and key. -/
structure Faithful (s3 : S3Client) (region resourceArn : String) : Prop where
  accessed : ∀ handler ∈ objectHandlers s3 region, ∀ state state' t out,
    state.resourceArn = resourceArn → Py.Run handler state t out state' →
    ∀ e ∈ t, ∀ bucket key, object? e = some (bucket, key) → Names resourceArn bucket key
  returned : ∀ handler ∈ objectHandlers s3 region, ∀ state state' t result,
    state.resourceArn = resourceArn → Py.Run handler state t (.ok result) state' →
    ∃ e ∈ t, ∃ bucket key, object? e = some (bucket, key) ∧ Names resourceArn bucket key
  parsed : ∀ bucket key, Names resourceArn bucket key → parts resourceArn = [bucket, key]

/-- A resource name that the handlers read as it is meant: it begins with the prefix and does
not repeat it after a bucket, or it does not begin with it and no object is accessed. -/
def Readable (s3 : S3Client) (resourceArn : String) : Prop :=
  (∃ rest : String, resourceArn = arnPrefix ++ rest ∧ (¬ arnPrefix.toList <:+: rest.toList ∨
    '/' ∉ rest.toList ∨ rest.toList.head? = some '/')) ∨
  (¬ arnPrefix.toList <+: resourceArn.toList ∧
    ∀ bucket key, parts resourceArn = [bucket, key] → s3.accepts bucket key = false)

private theorem arnPrefix_ne_nil : arnPrefix.toList ≠ [] := by decide

private theorem slash_notMem_arnPrefix : '/' ∉ arnPrefix.toList := by decide

/-- Two parts are what is before and after the first slash of the shortened name. -/
theorem parts_eq_pair_iff {resourceArn bucket key : String} :
    parts resourceArn = [bucket, key] ↔
      Python.removeAll arnPrefix.toList resourceArn.toList =
        bucket.toList ++ '/' :: key.toList ∧ '/' ∉ bucket.toList := by
  rw [← Python.splitOnce_eq_pair_iff, parts]
  constructor
  · intro h
    have hm := congrArg (List.map String.toList) h
    rw [List.map_map] at hm
    simpa [Function.comp_def] using hm
  · intro h
    rw [h]
    simp

/-- After the prefix only its repetitions are removed. -/
theorem removeAll_arnPrefix (rest : String) :
    Python.removeAll arnPrefix.toList (arnPrefix ++ rest).toList =
      Python.removeAll arnPrefix.toList rest.toList := by
  rw [String.toList_append, Python.removeAll_append arnPrefix_ne_nil]

/-- What follows the prefix in the name of an object. -/
theorem Names.rest {bucket key rest : String} (h : Names (arnPrefix ++ rest) bucket key) :
    rest.toList = bucket.toList ++ '/' :: key.toList := by
  have he := congrArg String.toList h.arn
  rw [String.toList_append, String.toList_append, String.toList_append, String.toList_append,
    List.append_assoc, List.append_assoc] at he
  exact List.append_cancel_left he

private theorem names_of_rest {bucket key rest : String}
    (h : rest.toList = bucket.toList ++ '/' :: key.toList) (hb : bucket ≠ "")
    (hs : '/' ∉ bucket.toList) : Names (arnPrefix ++ rest) bucket key := by
  refine ⟨?_, hb, hs⟩
  rw [← String.toList_inj, String.toList_append, String.toList_append, String.toList_append,
    String.toList_append, h, List.append_assoc, List.append_assoc]
  rfl

/-- An ARN of an object begins with the prefix of S3. -/
theorem Names.begins {resourceArn bucket key : String} (h : Names resourceArn bucket key) :
    arnPrefix.toList <+: resourceArn.toList := by
  rw [h.arn, String.toList_append, String.toList_append, String.toList_append, List.append_assoc,
    List.append_assoc]
  exact List.prefix_append _ _

/-! ### Runs -/

section Runs

variable {α : Type} {state state' : AgentState} {t : List S3Event}
  {out : Except (String × String) α} {s3 : S3Client} {region : String}

/-- A resource that does not split into two stops the run before any call. -/
theorem run_locate_bind {purpose : String} {f : String × String → Handler α}
    (h : Py.Run (locate purpose >>= f) state t out state') :
    (∃ bucket key, parts state.resourceArn = [bucket, key] ∧
      Py.Run (f (bucket, key)) state t out state') ∨ t = [] ∧ ∃ e, out = .error e := by
  rw [Py.run_bind] at h
  rcases h with ⟨e, h, ho⟩ | ⟨⟨bucket, key⟩, t₁, t₂, s₁, rfl, h, hf⟩
  · rw [locate, Py.run_read_bind] at h
    split at h
    · exact .inr ⟨(Py.run_pure.mp h).1, e, ho⟩
    · exact .inr ⟨(Py.run_raise.mp h).1, e, ho⟩
  · rw [locate, Py.run_read_bind] at h
    split at h
    · next b k hp =>
      obtain ⟨rfl, he, rfl⟩ := Py.run_pure.mp h
      cases he
      exact .inl ⟨bucket, key, hp, hf⟩
    · cases (Py.run_raise.mp h).2.1

/-- A client is made before anything else, or the run stops. -/
theorem run_connect_bind {f : Unit → Handler α}
    (h : Py.Run (connect region >>= f) state t out state') :
    ∃ made u, t = ⟨.client region, made⟩ :: u ∧
      ((u = [] ∧ ∃ e, out = .error e) ∨ Py.Run (f ()) state u out state') := by
  unfold connect call at h
  rw [Py.run_ask_bind_bind] at h
  obtain ⟨made, u, rfl, h⟩ := h
  refine ⟨made, u, rfl, ?_⟩
  cases made with
  | error e =>
    obtain ⟨hu, ho, -⟩ := Py.run_ofExcept_error_bind.mp h
    exact .inl ⟨hu, _, ho⟩
  | ok a => exact .inr (Py.run_ofExcept_ok_bind.mp h)

/-- Parameters that are not valid stop the run before any call. -/
theorem run_validate_bind {bucket key : String} {f : Unit → Handler α}
    (h : Py.Run (validate s3 bucket key >>= f) state t out state') :
    (s3.accepts bucket key = true ∧ Py.Run (f ()) state t out state') ∨
      t = [] ∧ ∃ e, out = .error e := by
  unfold validate at h
  by_cases ha : s3.accepts bucket key = true
  · rw [if_pos ha, Py.run_pure_bind] at h
    exact .inl ⟨ha, h⟩
  · rw [if_neg ha, Py.run_raise_bind] at h
    exact .inr ⟨h.1, _, h.2.1⟩

/-- A value that is computed without a call. -/
theorem run_ofExcept_bind_nil {β : Type} {x : Except (String × String) β} {f : β → Handler α}
    (hf : ∀ a, Py.Run (f a) state t out state' → t = [])
    (h : Py.Run (Py.ofExcept x >>= f) state t out state') : t = [] := by
  cases x with
  | error e => exact (Py.run_ofExcept_error_bind.mp h).1
  | ok a => exact hf a (Py.run_ofExcept_ok_bind.mp h)

/-- What a run touches: at most the object that its resource splits into, only if the parameters
are valid, and that object when it returns. -/
structure Touches (s3 : S3Client) (state : AgentState) (t : List S3Event)
    (out : Except (String × String) α) : Prop where
  only : ∀ e ∈ t, ∀ bucket key, object? e = some (bucket, key) →
    parts state.resourceArn = [bucket, key] ∧ s3.accepts bucket key = true
  returned : ∀ result, out = .ok result → ∃ e ∈ t, ∃ bucket key, object? e = some (bucket, key)

private theorem touches_nil {e : String × String} :
    Touches s3 state [] (.error e : Except (String × String) α) :=
  ⟨nofun, nofun⟩

private theorem touches_pair {bucket key : String} {made : Except String Unit} {e : S3Event}
    (hp : parts state.resourceArn = [bucket, key]) (ha : s3.accepts bucket key = true)
    (he : object? e = some (bucket, key)) : Touches s3 state [⟨.client region, made⟩, e] out := by
  refine ⟨fun e' hm b k ho ↦ ?_, fun _ _ ↦
    ⟨e, List.mem_cons_of_mem _ (List.mem_singleton_self _), bucket, key, he⟩⟩
  simp only [List.mem_cons, List.not_mem_nil, or_false] at hm
  rcases hm with rfl | rfl
  · cases ho
  · rw [he] at ho
    cases ho
    exact ⟨hp, ha⟩

private theorem touches_client {made : Except String Unit} {e : String × String} :
    Touches s3 state [⟨.client region, made⟩] (.error e : Except (String × String) α) := by
  refine ⟨fun e' hm b k ho ↦ ?_, nofun⟩
  rw [List.mem_singleton] at hm
  subst hm
  cases ho

/-- A reading handler touches at most that object. -/
theorem touches_get {lengthKey : String} {out : Except (String × String) ToolResult}
    (h : Py.Run (get s3 region lengthKey) state t out state') : Touches s3 state t out := by
  rcases run_locate_bind h with ⟨bucket, key, hp, h₁⟩ | ⟨rfl, e, rfl⟩
  swap
  · exact touches_nil
  obtain ⟨made, u, rfl, ⟨rfl, e, rfl⟩ | h₂⟩ := run_connect_bind h₁
  · exact touches_client
  rcases run_validate_bind h₂ with ⟨ha, h₃⟩ | ⟨rfl, e, rfl⟩
  swap
  · exact touches_client
  unfold call at h₃
  rw [Py.run_ask_bind] at h₃
  obtain ⟨resp, v, rfl, h₄⟩ := h₃
  have hv : v = [] := run_ofExcept_bind_nil (fun _ h ↦ (Py.run_pure.mp h).1) h₄
  subst hv
  exact touches_pair hp ha rfl

/-- The writing handler touches at most that object. -/
theorem touches_put {out : Except (String × String) ToolResult}
    (h : Py.Run (handleS3Put s3 region) state t out state') : Touches s3 state t out := by
  rcases run_locate_bind h with ⟨bucket, key, hp, h₁⟩ | ⟨rfl, e, rfl⟩
  swap
  · exact touches_nil
  rw [Py.run_read_bind, Py.run_ofExcept_bind] at h₁
  rcases h₁ with ⟨payload, -, h₁⟩ | ⟨e, -, rfl, rfl, -⟩
  swap
  · exact touches_nil
  obtain ⟨made, u, rfl, ⟨rfl, e, rfl⟩ | h₂⟩ := run_connect_bind h₁
  · exact touches_client
  rcases run_validate_bind h₂ with ⟨ha, h₃⟩ | ⟨rfl, e, rfl⟩
  swap
  · exact touches_client
  unfold call at h₃
  rw [Py.run_ask_bind] at h₃
  obtain ⟨resp, v, rfl, h₄⟩ := h₃
  have hv : v = [] := run_ofExcept_bind_nil
    (fun _ h ↦ run_ofExcept_bind_nil (fun _ h ↦ (Py.run_pure.mp h).1) h) h₄
  subst hv
  exact touches_pair hp ha rfl

/-- A resource that splits into valid parameters is accessed by them. -/
theorem exists_access (region : String) {bucket key : String}
    (hp : parts state.resourceArn = [bucket, key]) (ha : s3.accepts bucket key = true) :
    ∃ t out state', Py.Run (handleS3Get s3 region) state t out state' ∧
      ∃ e ∈ t, object? e = some (bucket, key) := by
  have hl : Py.Run (locate "") state [] (.ok (bucket, key)) state := by
    rw [locate, Py.run_read_bind]
    simp [hp]
  have hr : Py.Run (handleS3Get s3 region) state
      [⟨.client region, .ok ()⟩, ⟨.getObject bucket key, .ok ""⟩]
      (.ok (.dict [(.str "bucket", .str bucket), (.str "key", .str key),
        (.str "content", .str ""), (.str "bytes", .int 0)])) state := by
    refine Py.run_bind.mpr (.inr ⟨_, [], _, _, rfl, hl, ?_⟩)
    unfold connect call validate
    simp only [ha, if_true]
    rw [Py.run_ask_bind_bind]
    refine ⟨.ok (), _, rfl, Py.run_ofExcept_ok_bind.mpr ?_⟩
    rw [Py.run_pure_bind, Py.run_ask_bind]
    refine ⟨.ok "", _, rfl, Py.run_ofExcept_ok_bind.mpr ?_⟩
    rw [Py.run_pure]
    exact ⟨rfl, rfl, rfl⟩
  exact ⟨_, _, _, hr, _, List.mem_cons_of_mem _ List.mem_cons_self, rfl⟩

end Runs

/-! ### Which names are read as they are meant -/

private theorem touches_of_run {s3 : S3Client} {region : String} {handler : Handler ToolResult}
    (hm : handler ∈ objectHandlers s3 region) {state state' : AgentState} {t : List S3Event}
    {out : Except (String × String) ToolResult} (h : Py.Run handler state t out state') :
    Touches s3 state t out := by
  simp only [objectHandlers, List.mem_cons, List.not_mem_nil, or_false] at hm
  rcases hm with rfl | rfl | rfl
  · exact touches_get h
  · exact touches_get h
  · exact touches_put h

/-- The parts of a name that begins with the prefix and is readable are what it names. -/
theorem names_of_parts {s3 : S3Client} {bucket key rest : String}
    (hr : ¬ arnPrefix.toList <:+: rest.toList ∨ '/' ∉ rest.toList ∨ rest.toList.head? = some '/')
    (hp : parts (arnPrefix ++ rest) = [bucket, key]) (ha : s3.accepts bucket key = true) :
    Names (arnPrefix ++ rest) bucket key := by
  have hb : bucket ≠ "" := by
    rintro rfl
    rw [s3.accepts_empty] at ha
    cases ha
  rw [parts_eq_pair_iff, removeAll_arnPrefix] at hp
  obtain ⟨he, hs⟩ := hp
  rcases hr with hr | hr | hr
  · rw [Python.removeAll_of_not_infix hr] at he
    exact names_of_rest he hb hs
  · rw [← Python.mem_removeAll_iff arnPrefix_ne_nil slash_notMem_arnPrefix, he] at hr
    exact absurd (List.mem_append_right _ List.mem_cons_self) hr
  · obtain ⟨l, hl⟩ := List.head?_eq_some_iff.mp hr
    rw [hl, ← List.nil_append ('/' :: l),
      Python.removeAll_append_cons arnPrefix_ne_nil slash_notMem_arnPrefix] at he
    cases hc : bucket.toList with
    | nil => exact absurd (String.toList_eq_nil_iff.mp hc) hb
    | cons c cs =>
      rw [hc] at he hs
      have h₁ : '/' = c := (List.cons.inj he).1
      exact absurd (h₁ ▸ List.mem_cons_self) hs

/-- The parts of a readable name are what it is built from. -/
theorem parts_of_names {bucket key rest : String}
    (hr : ¬ arnPrefix.toList <:+: rest.toList ∨ '/' ∉ rest.toList ∨ rest.toList.head? = some '/')
    (hn : Names (arnPrefix ++ rest) bucket key) : parts (arnPrefix ++ rest) = [bucket, key] := by
  have he := hn.rest
  rw [parts_eq_pair_iff, removeAll_arnPrefix]
  rcases hr with hr | hr | hr
  · rw [Python.removeAll_of_not_infix hr]
    exact ⟨he, hn.no_slash⟩
  · rw [he] at hr
    exact absurd (List.mem_append_right _ List.mem_cons_self) hr
  · rw [he] at hr
    cases hc : bucket.toList with
    | nil => exact absurd (String.toList_eq_nil_iff.mp hc) hn.bucket_ne
    | cons c cs =>
      rw [hc] at hr
      have h₁ : c = '/' := Option.some.inj hr
      exact absurd (by rw [hc, h₁]; exact List.mem_cons_self) hn.no_slash

/-- A name that repeats the prefix after a bucket is not parsed into what it is built from. -/
theorem exists_names_of_repeated {rest : String} (hi : arnPrefix.toList <:+: rest.toList)
    (hs : '/' ∈ rest.toList) (hh : rest.toList.head? ≠ some '/') :
    ∃ bucket key, Names (arnPrefix ++ rest) bucket key ∧
      parts (arnPrefix ++ rest) ≠ [bucket, key] := by
  obtain ⟨b, k, he, hb⟩ := List.eq_append_cons_of_mem hs
  have hr : rest.toList = (String.ofList b).toList ++ '/' :: (String.ofList k).toList := by
    rw [String.toList_ofList, String.toList_ofList, he]
  refine ⟨.ofList b, .ofList k, names_of_rest hr ?_ ?_, ?_⟩
  · rintro hn
    have hnil : b = [] := by
      rw [← String.toList_ofList (l := b), hn]
      rfl
    rw [he, hnil] at hh
    exact hh rfl
  · rw [String.toList_ofList]
    exact hb
  · intro hp
    rw [parts_eq_pair_iff, removeAll_arnPrefix, ← hr] at hp
    have hl := Python.length_removeAll_lt arnPrefix_ne_nil hi
    rw [hp.1] at hl
    exact Nat.lt_irrefl _ hl

/-- A run that returns has accessed an object, so only what is accessed matters. -/
theorem faithful_of_accessed {s3 : S3Client} {region resourceArn : String}
    (accessed : ∀ handler ∈ objectHandlers s3 region, ∀ state state' t out,
      state.resourceArn = resourceArn → Py.Run handler state t out state' →
      ∀ e ∈ t, ∀ bucket key, object? e = some (bucket, key) → Names resourceArn bucket key)
    (parsed : ∀ bucket key, Names resourceArn bucket key → parts resourceArn = [bucket, key]) :
    Faithful s3 region resourceArn where
  accessed := accessed
  returned handler hm state state' t result hs hrun := by
    obtain ⟨e, he, bucket, key, ho⟩ := (touches_of_run hm hrun).returned result rfl
    exact ⟨e, he, bucket, key, ho, accessed handler hm state state' t _ hs hrun e he bucket key ho⟩
  parsed := parsed

/-- A state of an agent that is asked for a resource. -/
def stateFor (resourceArn : String) : AgentState where
  taskId := "task-001"
  environment := "staging"
  action := "s3:GetObject"
  toolKey := "s3_get_object"
  resourceArn := resourceArn
  resourceTags := []
  context := []
  result := .other .null
  error := none
  decision := none

/-- The handlers are faithful to exactly the readable names. -/
theorem faithful_iff_readable (s3 : S3Client) (region resourceArn : String) :
    Faithful s3 region resourceArn ↔ Readable s3 resourceArn := by
  constructor
  · intro h
    by_cases hp : arnPrefix.toList <+: resourceArn.toList
    · obtain ⟨l, hl⟩ := hp
      have hr : resourceArn = arnPrefix ++ String.ofList l := by
        rw [← String.toList_inj, String.toList_append, String.toList_ofList, hl]
      refine .inl ⟨_, hr, ?_⟩
      subst hr
      by_contra hn
      rw [not_or, not_or, not_not, not_not] at hn
      obtain ⟨bucket, key, hb, hx⟩ := exists_names_of_repeated hn.1 hn.2.1 hn.2.2
      exact hx (h.parsed bucket key hb)
    · refine .inr ⟨hp, fun bucket key hpair ↦ ?_⟩
      rw [← Bool.not_eq_true]
      intro ha
      have hpair : parts (stateFor resourceArn).resourceArn = [bucket, key] := hpair
      obtain ⟨t, out, state', hrun, e, he, ho⟩ := exists_access region hpair ha
      have hm : handleS3Get s3 region ∈ objectHandlers s3 region := by simp [objectHandlers]
      exact hp (h.accessed _ hm _ _ t out rfl hrun e he bucket key ho).begins
  · rintro (⟨rest, rfl, hr⟩ | ⟨hp, hr⟩)
    · apply faithful_of_accessed
      · rintro handler hm state state' t out hs hrun e he bucket key ho
        obtain ⟨hpair, ha⟩ := (touches_of_run hm hrun).only e he bucket key ho
        rw [hs] at hpair
        exact names_of_parts hr hpair ha
      · exact fun bucket key hn ↦ parts_of_names hr hn
    · apply faithful_of_accessed
      · rintro handler hm state state' t out rfl hrun e he bucket key ho
        obtain ⟨hpair, ha⟩ := (touches_of_run hm hrun).only e he bucket key ho
        rw [hr bucket key hpair] at ha
        cases ha
      · exact fun bucket key hn ↦ absurd hn.begins hp

/-- The validation of names by their characters. -/
def plainClient : S3Client where
  accepts bucket key := bucket ≠ "" ∧ key ≠ "" ∧
    bucket.toList.all fun c ↦ c.isAlphanum || c = '.' || c = '-' || c = '_'
  accepts_empty _ := rfl
  len _ := .ok 0

/-- A key that contains the prefix: the object of another key is read. -/
theorem repeated_prefix_misread :
    Names "arn:aws:s3:::reports/arn:aws:s3:::x" "reports" "arn:aws:s3:::x" ∧
      parts "arn:aws:s3:::reports/arn:aws:s3:::x" = ["reports", "x"] ∧
      ¬ ∀ region resourceArn, Faithful plainClient region resourceArn := by
  have hn : Names "arn:aws:s3:::reports/arn:aws:s3:::x" "reports" "arn:aws:s3:::x" :=
    ⟨by decide, by decide, by decide⟩
  have hp : parts "arn:aws:s3:::reports/arn:aws:s3:::x" = ["reports", "x"] := by decide
  refine ⟨hn, hp, fun h ↦ ?_⟩
  have hx := (h "us-east-1" _).parsed _ _ hn
  rw [hp] at hx
  revert hx
  decide

end S3
end NhiSentinel.Agents
