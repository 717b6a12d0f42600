import NhiSentinel.Base.Cedar
import NhiSentinel.Base.Words
import NhiSentinel.Pep.Client

/-!
# The resource policy evaluator

`CedarEvaluator` of `pep/cedar_evaluator.py` as a program over the files it writes and the
command line tool it runs, and when its reading of the tool's output is the decision that
the tool printed.
-/

namespace NhiSentinel.Pep
open NhiSentinel.Base

/-- How `subprocess.run` ends: in a timeout, in another exception with its text, or with what the
tool printed. -/
inductive CliResult where
  | timeout
  | raised (text : String)
  | completed (stdout : String)
  deriving DecidableEq

/-- The calls that leave the evaluator. -/
inductive CliCall where
  /-- `p.exists()`, `cedar_evaluator.py:119`. -/
  | pathExists (path : String)
  /-- `tempfile.NamedTemporaryFile`, `cedar_evaluator.py:147`. -/
  | tempfile
  /-- `json.dump` into the open file. -/
  | dump (path : String) (doc : Value)
  | run (args : List String)
  /-- `Path(path).unlink(missing_ok=True)`. -/
  | unlink (path : String)
  deriving DecidableEq

/-- What a call is answered. -/
@[reducible] def CliCall.Reply : CliCall → Type
  | pathExists _ => Bool
  | tempfile => Except String String
  | dump .. => Except String Unit
  | run _ => CliResult
  | unlink _ => Except String Unit

/-- A call together with its reply. -/
abbrev CliEvent := Sigma CliCall.Reply

/-- `CedarEvaluator`, `cedar_evaluator.py:60`: where its policies are, and whether the tool was
found. -/
structure CedarEvaluator where
  policyDir : String
  cedarAvailable : Bool

/-- A method of the evaluator; exceptions by their text. -/
abbrev Evaluation := Py CedarEvaluator String CliCall CliCall.Reply

namespace CedarEvaluator

/-- Call the environment. -/
def call (c : CliCall) : Evaluation c.Reply := Py.ask c

/-- `S3_ACTIONS`, `cedar_evaluator.py:64`. -/
def s3Actions : List String := [
  "s3:GetObject", "s3:PutObject", "s3:ListBuckets", "s3:DeleteObject", "s3:DeleteBucket"]

/-- `IAM_ACTIONS`, `cedar_evaluator.py:68`. -/
def iamActions : List String := [
  "iam:CreateRole", "iam:ListRoles", "iam:AttachRolePolicy", "iam:CreateUser", "iam:DeleteRole",
  "iam:DeleteUser"]

/-- `_select_policy_file`, `cedar_evaluator.py:112`. -/
def selectPolicyFile (action : String) : Evaluation (Option String) := do
  let dir := (← Py.read).policyDir
  let ifExists (path : String) : Evaluation (Option String) := do
    let found : Bool ← call (.pathExists path)
    pure (if found then some path else none)
  if action ∈ s3Actions then ifExists (dir ++ "/s3_resource_policy.cedar")
  else if action ∈ iamActions then ifExists (dir ++ "/iam_resource_policy.cedar")
  else pure none

/-- `_build_entities`, `cedar_evaluator.py:121`. -/
def buildEntities (request : CedarRequest) : Value := .arr [
  .obj [
    ("uid", .obj [("type", .str "NHI::Agent"), ("id", .str request.principal.agentId)]),
    ("attrs", .obj [
      ("agent_type", .str request.principal.agentType),
      ("scopes", request.principal.scopes)]),
    ("parents", .arr [])],
  .obj [
    ("uid", .obj [
      ("type", .str request.resource.resourceType),
      ("id", .str request.resource.resourceId)]),
    ("attrs", .obj (request.resource.attributes.map fun kv ↦ (kv.1, .str kv.2))),
    ("parents", .arr [])]]

/-- The request file, `cedar_evaluator.py:103`. -/
def cedarRequestDoc (request : CedarRequest) : Value := .obj [
  ("principal", .str s!"NHI::Agent::\"{request.principal.agentId}\""),
  ("action", .str s!"NHI::Action::\"{request.action}\""),
  ("resource", .str s!"{request.resource.resourceType}::\"{request.resource.resourceId}\""),
  ("context", .obj request.context)]

/-- A document in a new temporary file. -/
def writeJson (doc : Value) : Evaluation String := do
  let file : Except String String ← call .tempfile
  let path ← Py.ofExcept file
  let written : Except String Unit ← call (.dump path doc)
  Py.ofExcept written
  pure path

/-- What is made of the tool's end, `cedar_evaluator.py:171–188`. -/
def verdict (lc : Python.LowerCase) : CliResult → CedarDecision
  | .completed stdout =>
    let output := lc.lower (Python.strip stdout)
    let permitted : Bool := "allow".toList <:+: output.toList
    ⟨permitted, if permitted then "cedar-allow" else "cedar-deny"⟩
  | .timeout => ⟨false, "cedar-timeout"⟩
  | .raised text => ⟨false, "cedar-error: " ++ text⟩

/-- Removal of a file. -/
def unlink (path : String) : Evaluation Unit := do
  let removed : Except String Unit ← call (.unlink path)
  Py.ofExcept removed

/-- The command line, `cedar_evaluator.py:159`. -/
def commandLine (policyFile entitiesPath requestPath : String) : List String := [
  "cedar", "authorize", "--policies", policyFile, "--entities", entitiesPath,
  "--request-json", requestPath]

/-- `_run_cedar`, `cedar_evaluator.py:141`: the files are written outside of the guarded part and
removed after it. -/
def runCedar (lc : Python.LowerCase) (policyFile : String) (entities cedarRequest : Value) :
    Evaluation CedarDecision := do
  let entitiesPath ← writeJson entities
  let requestPath ← writeJson cedarRequest
  let result : CliResult ← call (.run (commandLine policyFile entitiesPath requestPath))
  unlink entitiesPath
  unlink requestPath
  pure (verdict lc result)

/-- `evaluate`, `cedar_evaluator.py:81`. -/
def evaluate (lc : Python.LowerCase) (request : CedarRequest) : Evaluation CedarDecision := do
  if (← Py.read).cedarAvailable = false then pure ⟨true, "cedar-cli-not-installed"⟩
  else if request.action ∉ s3Actions ++ iamActions then
    pure ⟨true, "action-not-cedar-governed"⟩
  else do
    let policyFile ← selectPolicyFile request.action
    match policyFile with
    | none => pure ⟨true, "no-cedar-policy-for-action"⟩
    | some policyFile =>
      runCedar lc policyFile (buildEntities request) (cedarRequestDoc request)

/-! ### What the tool prints -/

/-- The decision line. -/
def decisionLine : Cedar.Decision → String
  | .allow => "ALLOW"
  | .deny => "DENY"

/-- The output begins with the decision line, and a diagnostic may follow. -/
def Announces (d : Cedar.Decision) (diagnostic stdout : String) : Prop :=
  stdout = decisionLine d ++ "\n" ++ diagnostic ∨ stdout = decisionLine d ∧ diagnostic = ""

/-- No line of the output is a decision line. -/
def Undecided (stdout : String) : Prop :=
  ∀ d, (decisionLine d).toList ∉ stdout.toList.splitOn '\n'

/-- The call is on a file, and it failed. -/
def fileFailed : CliEvent → Bool
  | ⟨.tempfile, .error _⟩ | ⟨.dump .., .error _⟩ | ⟨.unlink _, .error _⟩ => true
  | _ => false

/-- The tool was run and ended without output. -/
def toolFailed : CliEvent → Bool
  | ⟨.run _, .timeout⟩ | ⟨.run _, .raised _⟩ => true
  | _ => false

/-- The evaluation returned a decision. -/
def Returns (permitted : Bool) (out : Except String CedarDecision) : Prop :=
  ∃ reason, out = .ok ⟨permitted, reason⟩

/-- The evaluation returns the decision that the tool printed, and a denial where there is
none. -/
structure Faithful (t : List CliEvent) (out : Except String CedarDecision) : Prop where
  announced : ∀ args stdout d diagnostic, ⟨.run args, .completed stdout⟩ ∈ t →
    Announces d diagnostic stdout → Returns (d = .allow) out
  undecided : ∀ args stdout, ⟨.run args, .completed stdout⟩ ∈ t → Undecided stdout →
    Returns false out
  failure : (t.any fileFailed || t.any toolFailed) = true → Returns false out

/-- No file operation fails, and neither the diagnostic of a denial nor an output without a
decision mentions the word. -/
structure Harmless (t : List CliEvent) : Prop where
  files : t.any fileFailed = false
  diagnostic : ∀ args stdout diagnostic, ⟨.run args, .completed stdout⟩ ∈ t →
    Announces .deny diagnostic stdout → ¬ Python.Mentions "allow" diagnostic
  undecided : ∀ args stdout, ⟨.run args, .completed stdout⟩ ∈ t → Undecided stdout →
    ¬ Python.Mentions "allow" stdout

/-- The verdict permits where the output mentions the word, anywhere. -/
theorem verdict_permitted_iff (lc : Python.LowerCase) (stdout : String) :
    (verdict lc (.completed stdout)).permitted = true ↔ Python.Mentions "allow" stdout := by
  have hp : "allow".toList.all (fun x ↦ decide (Python.IsPlain x)) = true := by decide
  have hw : ∀ x ∈ "allow".toList, Python.IsPlain x := fun x hx ↦
    of_decide_eq_true (List.all_eq_true.mp hp x hx)
  -- an equation of `verdict` would evaluate the test
  delta verdict
  dsimp only
  rw [decide_eq_true_eq]
  exact lc.infix_lower_strip_iff (by decide) hw stdout

/-- A denial mentions the word where its diagnostic does, and a permission always does. -/
theorem mentions_announced {d : Cedar.Decision} {diagnostic stdout : String}
    (h : Announces d diagnostic stdout) :
    Python.Mentions "allow" stdout ↔ d = .allow ∨ Python.Mentions "allow" diagnostic := by
  have hd : "allow".toList <:+: (decisionLine d).toList.map Char.toLower ↔ d = .allow := by
    cases d <;> decide
  rcases h with rfl | ⟨rfl, rfl⟩
  · have hl : (decisionLine d ++ "\n" ++ diagnostic).toList.map Char.toLower =
        (decisionLine d).toList.map Char.toLower ++ '\n' :: diagnostic.toList.map Char.toLower := by
      rw [String.toList_append, String.toList_append, List.map_append, List.map_append,
        List.append_assoc]
      rfl
    rw [Python.Mentions, hl, infix_append_cons_iff (by decide) (by decide), hd, Python.Mentions]
  · have he : ¬ Python.Mentions "allow" "" := by decide
    rw [Python.Mentions, hd]
    simp [he]

/-! ### Runs -/

/-- The calls are on files, and one of them failed exactly where the outcome is an exception. -/
structure OnFiles {α : Type} (t : List CliEvent) (out : Except String α) : Prop where
  apart : ∀ args r, ⟨.run args, r⟩ ∉ t
  failed : t.any fileFailed = !out.isOk

private theorem run_writeJson {doc : Value} {ev ev' : CedarEvaluator} {t : List CliEvent}
    {out : Except String String} (h : Py.Run (writeJson doc) ev t out ev') : OnFiles t out := by
  unfold writeJson call at h
  rw [Py.run_ask_bind] at h
  obtain ⟨file, t', rfl, h⟩ := h
  cases file with
  | error e =>
    rw [Py.run_ofExcept_error_bind] at h
    obtain ⟨rfl, rfl, -⟩ := h
    exact ⟨by simp, rfl⟩
  | ok path =>
    rw [Py.run_ofExcept_ok_bind, Py.run_ask_bind] at h
    obtain ⟨written, t'', rfl, h⟩ := h
    cases written with
    | error e =>
      rw [Py.run_ofExcept_error_bind] at h
      obtain ⟨rfl, rfl, -⟩ := h
      exact ⟨by simp, rfl⟩
    | ok u =>
      rw [Py.run_ofExcept_ok_bind, Py.run_pure] at h
      obtain ⟨rfl, rfl, -⟩ := h
      exact ⟨by simp, rfl⟩

private theorem run_unlink {path : String} {ev ev' : CedarEvaluator} {t : List CliEvent}
    {out : Except String Unit} (h : Py.Run (unlink path) ev t out ev') : OnFiles t out := by
  unfold unlink call at h
  rw [Py.run_ask_bind] at h
  obtain ⟨removed, t', rfl, h⟩ := h
  rw [Py.run_ofExcept] at h
  obtain ⟨rfl, rfl, -⟩ := h
  cases out <;> exact ⟨by simp, rfl⟩

/-- How a run can go: an exception from a file operation, or the verdict on the one run of
the tool. -/
inductive Ended (lc : Python.LowerCase) :
    List CliEvent → Except String CedarDecision → Prop where
  | exception {t : List CliEvent} {text : String} (hf : t.any fileFailed = true) :
      Ended lc t (.error text)
  | verdict {t : List CliEvent} (args : List String) {r : CliResult}
      (hf : t.any fileFailed = false)
      (hr : ∀ args' r', ⟨.run args', r'⟩ ∈ t ↔ args' = args ∧ r' = r) :
      Ended lc t (.ok (verdict lc r))

/-- A failed file operation among the calls ends the run in its exception. -/
theorem Ended.of_files {lc : Python.LowerCase} {α : Type} {t u : List CliEvent} {text : String}
    (h : OnFiles t (.error text : Except String α)) (hs : t ⊆ u) : Ended lc u (.error text) := by
  obtain ⟨e, he, hf⟩ := List.any_eq_true.mp h.failed
  exact Ended.exception (List.any_eq_true.mpr ⟨e, hs he, hf⟩)

/-- Every run ends in one of these ways. -/
theorem run_runCedar {lc : Python.LowerCase} {policyFile : String} {entities cedarRequest : Value}
    {ev ev' : CedarEvaluator} {t : List CliEvent} {out : Except String CedarDecision}
    (h : Py.Run (runCedar lc policyFile entities cedarRequest) ev t out ev') :
    Ended lc t out := by
  unfold runCedar call at h
  rw [Py.run_bind] at h
  obtain ⟨e, h₁, rfl⟩ | ⟨entitiesPath, t₁, u₁, ev₁, rfl, h₁, h⟩ := h
  · exact Ended.of_files (run_writeJson h₁) (by simp)
  rw [Py.run_bind] at h
  obtain ⟨e, h₂, rfl⟩ | ⟨requestPath, t₂, u₂, ev₂, rfl, h₂, h⟩ := h
  · exact Ended.of_files (run_writeJson h₂) (by simp)
  rw [Py.run_ask_bind] at h
  obtain ⟨r, u₃, rfl, h⟩ := h
  rw [Py.run_bind] at h
  obtain ⟨e, h₃, rfl⟩ | ⟨_, t₃, u₄, ev₃, rfl, h₃, h⟩ := h
  · exact Ended.of_files (run_unlink h₃) (by intro x hx; simp [hx])
  rw [Py.run_bind] at h
  obtain ⟨e, h₄, rfl⟩ | ⟨_, t₄, u₅, ev₄, rfl, h₄, h⟩ := h
  · exact Ended.of_files (run_unlink h₄) (by intro x hx; simp [hx])
  rw [Py.run_pure] at h
  obtain ⟨rfl, rfl, -⟩ := h
  have f₁ := run_writeJson h₁
  have f₂ := run_writeJson h₂
  have f₃ := run_unlink h₃
  have f₄ := run_unlink h₄
  apply Ended.verdict (commandLine policyFile entitiesPath requestPath)
  · simp [List.any_append, List.any_cons, f₁.failed, f₂.failed, f₃.failed, f₄.failed, fileFailed,
      Except.isOk, Except.toBool]
  · intro args' r'
    simp [f₁.apart, f₂.apart, f₃.apart, f₄.apart]

/-- A run of the tool without output is denied. -/
theorem toolFailed_cases {t : List CliEvent} (h : t.any toolFailed = true) :
    ∃ args r, ⟨.run args, r⟩ ∈ t ∧ ∀ lc, (verdict lc r).permitted = false := by
  obtain ⟨⟨c, r⟩, hm, hf⟩ := List.any_eq_true.mp h
  cases c with
  | run args =>
    cases r with
    | timeout => exact ⟨args, _, hm, fun _ ↦ rfl⟩
    | raised text => exact ⟨args, _, hm, fun _ ↦ rfl⟩
    | completed stdout => cases hf
  | _ => cases hf

private theorem returns_verdict {lc : Python.LowerCase} {r : CliResult} {permitted : Bool} :
    Returns permitted (.ok (verdict lc r)) ↔ (verdict lc r).permitted = permitted := by
  constructor
  · rintro ⟨reason, h⟩
    rw [Except.ok.inj h]
  · rintro rfl
    exact ⟨_, rfl⟩

/-- The verdict on an announced decision is that decision unless a denial's diagnostic
mentions the word. -/
theorem verdict_announced_iff {lc : Python.LowerCase} {d : Cedar.Decision}
    {diagnostic stdout : String} (h : Announces d diagnostic stdout) :
    (verdict lc (.completed stdout)).permitted = decide (d = .allow) ↔
      (d = .deny → ¬ Python.Mentions "allow" diagnostic) := by
  have hv := verdict_permitted_iff lc stdout
  rw [mentions_announced h] at hv
  cases d with
  | allow => simpa using hv
  | deny =>
    rw [show decide (Cedar.Decision.deny = .allow) = false from rfl, ← Bool.not_eq_true, hv]
    simp

/-- On every request a run reads the tool's decision faithfully exactly when it is
harmless. -/
theorem runCedar_faithful_iff (lc : Python.LowerCase) (policyFile : String)
    (entities cedarRequest : Value) (ev ev' : CedarEvaluator) (t : List CliEvent)
    (out : Except String CedarDecision)
    (h : Py.Run (runCedar lc policyFile entities cedarRequest) ev t out ev') :
    Faithful t out ↔ Harmless t := by
  cases run_runCedar h with
  | exception hf =>
    constructor
    · intro hl
      obtain ⟨reason, hr⟩ := hl.failure (by rw [hf, Bool.true_or])
      cases hr
    · intro hq
      rw [hq.files] at hf
      cases hf
  | verdict args hf hr =>
    constructor
    · intro hl
      refine ⟨hf, fun args' stdout diagnostic hm ha ↦ ?_, fun args' stdout hm hu ↦ ?_⟩
      · have hd := hl.announced args' stdout .deny diagnostic hm ha
        obtain ⟨-, rfl⟩ := (hr _ _).mp hm
        exact (verdict_announced_iff ha).mp (returns_verdict.mp hd) rfl
      · have hd := hl.undecided args' stdout hm hu
        obtain ⟨-, rfl⟩ := (hr _ _).mp hm
        rw [← verdict_permitted_iff lc, returns_verdict.mp hd]
        decide
    · intro hq
      refine ⟨fun args' stdout d diagnostic hm ha ↦ ?_, fun args' stdout hm hu ↦ ?_, fun hx ↦ ?_⟩
      · obtain ⟨-, rfl⟩ := (hr _ _).mp hm
        refine returns_verdict.mpr ((verdict_announced_iff ha).mpr ?_)
        rintro rfl
        exact hq.diagnostic args' stdout diagnostic hm ha
      · obtain ⟨-, rfl⟩ := (hr _ _).mp hm
        have hn := hq.undecided args' stdout hm hu
        rw [← verdict_permitted_iff lc, Bool.not_eq_true] at hn
        exact returns_verdict.mpr hn
      · rw [hf, Bool.false_or] at hx
        obtain ⟨args', r', hm, hd⟩ := toolFailed_cases hx
        obtain ⟨-, rfl⟩ := (hr _ _).mp hm
        exact returns_verdict.mpr (hd lc)

/-- A write to a bucket whose name has the word in it. -/
def allowlistRequest : CedarRequest where
  principal := ⟨"agent-data-001", "DataAgent", .arr [.str "cloud:s3:write"]⟩
  action := "s3:PutObject"
  resource := ⟨"NHI::S3Bucket", "arn:aws:s3:::allowlist/users.csv",
    [("DataClassification", "restricted"), ("Environment", "prod")]⟩
  context := []

/-- The calls of a run in which the files can be written and the tool prints something. -/
def printing (policyFile : String) (entities cedarRequest : Value)
    (entitiesPath requestPath stdout : String) : List CliEvent := [
  ⟨.tempfile, .ok entitiesPath⟩,
  ⟨.dump entitiesPath entities, .ok ()⟩,
  ⟨.tempfile, .ok requestPath⟩,
  ⟨.dump requestPath cedarRequest, .ok ()⟩,
  ⟨.run (commandLine policyFile entitiesPath requestPath), .completed stdout⟩,
  ⟨.unlink entitiesPath, .ok ()⟩,
  ⟨.unlink requestPath, .ok ()⟩]

/-- The tool can print anything, and the verdict is on what it printed. -/
theorem run_printing (lc : Python.LowerCase) (policyFile : String) (entities cedarRequest : Value)
    (entitiesPath requestPath stdout : String) (ev : CedarEvaluator) :
    Py.Run (runCedar lc policyFile entities cedarRequest) ev
      (printing policyFile entities cedarRequest entitiesPath requestPath stdout)
      (.ok (verdict lc (.completed stdout))) ev := by
  repeat apply Prog.Steps.call
  exact Prog.Steps.refl _

/-- The verdict on a write whose files can be written. -/
def allowlistRun (stdout : String) : List CliEvent :=
  printing "policy/cedar/s3_resource_policy.cedar" (buildEntities allowlistRequest)
    (cedarRequestDoc allowlistRequest) "/tmp/entities.json" "/tmp/request.json" stdout

private theorem mem_allowlistRun {args : List String} {stdout stdout' : String}
    (h : ⟨.run args, .completed stdout'⟩ ∈ allowlistRun stdout) : stdout' = stdout := by
  simp [allowlistRun, printing] at h
  exact h.2

/-- A denial without a diagnostic is read faithfully. -/
theorem plain_denial_faithful :
    Py.Run (runCedar .plain "policy/cedar/s3_resource_policy.cedar"
        (buildEntities allowlistRequest) (cedarRequestDoc allowlistRequest)) ⟨"policy/cedar", true⟩
        (allowlistRun "DENY") (.ok (verdict .plain (.completed "DENY"))) ⟨"policy/cedar", true⟩ ∧
      Faithful (allowlistRun "DENY") (.ok (verdict .plain (.completed "DENY"))) := by
  have hr := run_printing .plain "policy/cedar/s3_resource_policy.cedar"
    (buildEntities allowlistRequest) (cedarRequestDoc allowlistRequest) "/tmp/entities.json"
    "/tmp/request.json" "DENY" ⟨"policy/cedar", true⟩
  have hn : ¬ Python.Mentions "allow" "DENY" := by decide
  refine ⟨hr, (runCedar_faithful_iff .plain _ _ _ _ _ _ _ hr).mpr ⟨rfl, ?_, ?_⟩⟩
  · intro args stdout diagnostic hm ha hd
    obtain rfl := mem_allowlistRun hm
    exact hn ((mentions_announced ha).mpr (.inr hd))
  · intro args stdout hm _
    rw [mem_allowlistRun hm]
    exact hn

/-- A denial whose diagnostic names the bucket is read as a permission. -/
theorem echoed_denial_permitted :
    let stdout := "DENY\nnote: NHI::S3Bucket::\"arn:aws:s3:::allowlist/users.csv\""
    verdict .plain (.completed stdout) = ⟨true, "cedar-allow"⟩ ∧
      ¬ ∀ (policyFile : String) (entities cedarRequest : Value) (ev ev' : CedarEvaluator) t out,
        Py.Run (runCedar .plain policyFile entities cedarRequest) ev t out ev' →
          Faithful t out := by
  intro stdout
  have hv : verdict .plain (.completed stdout) = ⟨true, "cedar-allow"⟩ := by decide
  refine ⟨hv, fun h ↦ ?_⟩
  have hr := run_printing .plain "policy/cedar/s3_resource_policy.cedar"
    (buildEntities allowlistRequest) (cedarRequestDoc allowlistRequest) "/tmp/entities.json"
    "/tmp/request.json" stdout ⟨"policy/cedar", true⟩
  have hf := (h _ _ _ _ _ _ _ hr).announced
    (commandLine "policy/cedar/s3_resource_policy.cedar" "/tmp/entities.json" "/tmp/request.json")
    stdout .deny "note: NHI::S3Bucket::\"arn:aws:s3:::allowlist/users.csv\""
    (by simp [printing]) (.inl rfl)
  rw [returns_verdict, hv] at hf
  cases hf

end CedarEvaluator
end NhiSentinel.Pep
