import NhiSentinel.Agents.Trail
import NhiSentinel.Pep.ContextFlow

/-!
# Where the token goes

A run keeps its token in the context of its state, and the context goes into the request.
What the policy engine and the resource policy get to see is compared between two runs that
differ in the token and in nothing else.
-/

namespace NhiSentinel.Agents
open NhiSentinel.Base NhiSentinel.Pep

/-- Everything of a run but its token: the agent with its enforcement point and arguments, the
claims that the token stands for, the replies to the calls after the introspection, and the
evaluator of the resource policy with the replies to its calls. -/
structure Setting where
  rt : Runtime
  lc : Python.LowerCase
  agent : BaseAgent
  pep : PolicyEnforcementPoint
  args : RunArgs
  claims : Except String Value
  env : List AgentEvent → (c : AgentCall) → c.Reply
  evaluator : CedarEvaluator
  cli : List CliEvent → (c : CliCall) → c.Reply

/-- What the policy layers are handed: the inputs posted to the policy engine, and the entities
and requests written for the command line tool. -/
structure Disclosure where
  posted : List Value
  written : List Value
  deriving DecidableEq

namespace Setting

variable (x : Setting)

/-- The environment that issues the given token. The calls after the introspection are answered as
a matter of the calls since then. -/
def issuing (token : String) : List AgentEvent → (c : AgentCall) → c.Reply
  | _, .getToken .. => .ok token
  | _, .introspect _ => x.claims
  | t, c => x.env (t.drop 2) c

/-- The calls of the run with the given token. -/
def trace (token : String) : List AgentEvent :=
  (Py.exec (x.issuing token) (invoke x.rt x.agent) ⟨x.pep, x.args.initialState⟩).1

/-- The documents that the evaluator writes for a request. -/
def documents (request : CedarRequest) : List Value :=
  (Py.exec x.cli (CedarEvaluator.evaluate x.lc request) x.evaluator).1.filterMap fun
    | ⟨.dump _ doc, _⟩ => some doc
    | _ => none

/-- What the run with the given token discloses. -/
def disclosed (token : String) : Disclosure where
  posted := posts (enforcement (x.trace token))
  written := (consulted (enforcement (x.trace token))).flatMap x.documents

/-- The request of the run, if the introspection returns claims, the tool is in the registry, and
the request is valid. -/
def request? (token : String) : Option ActionRequest := do
  let claims ← x.claims.toOption
  let spec ← (x.agent.registry.get x.args.toolKey).toOption
  actionRequest? x.agent spec (x.args.initialState.withToken token claims)

/-- The run has a request, and it passes every check before the policy engine. -/
def Asks (token : String) : Prop :=
  ∃ request, x.request? token = some request ∧ Passes request (enforcement (x.trace token))

/-! ### The request -/

variable {x} {a b token : String} {request : ActionRequest}

/-- The token is in the context of the request. -/
theorem token_of_request? (h : x.request? token = some request) :
    request.context.lookup "_token" = some (.str token) := by
  simp only [request?, Option.bind_eq_bind, Option.bind_eq_some_iff] at h
  obtain ⟨claims, -, spec, -, h⟩ := h
  obtain ⟨-, -, hc⟩ := actionRequest?_eq_some h
  rw [hc]
  exact Value.lookup_setMember_self ..

/-- The count of actions does not replace the token. -/
theorem token_of_sent (h : x.request? token = some request) (t : List Event) :
    (request.sent t).context.lookup "_token" = some (.str token) := by
  rw [ActionRequest.sent]
  split
  · exact (Value.lookup_setMember_ne _ _ (by decide)).trans (token_of_request? h)
  · exact token_of_request? h

private theorem claims_of_withToken (state : AgentState) (token : String) (claims : Value) :
    (state.withToken token claims).context.lookup "_token_claims" = some claims :=
  (Value.lookup_setMember_ne _ _ (by decide)).trans (Value.lookup_setMember_self ..)

/-- With another token the request is the same, but for a text in its context. -/
theorem request?_retexted (h : x.request? a = some request) (b : String) :
    ∃ context, x.request? b = some { request with context := context } ∧
      Retexted request.context context := by
  simp only [request?, Option.bind_eq_bind, Option.bind_eq_some_iff] at h ⊢
  obtain ⟨claims, hc, spec, hs, h⟩ := h
  refine ⟨(x.args.initialState.withToken b claims).context, ⟨claims, hc, spec, hs, ?_⟩, ?_⟩
  · simp only [actionRequest?, claims_of_withToken] at h ⊢
    cases claims with
    | obj kvs =>
      simp only [Option.getD_some, Option.bind_eq_bind, Option.bind_some, Option.pure_def,
        Option.bind_eq_some_iff, Option.some.injEq] at h ⊢
      obtain ⟨tags, ht, rfl⟩ := h
      exact ⟨tags, ht, rfl⟩
    | _ => cases h
  · rw [(actionRequest?_eq_some h).2.2]
    exact (Retexted.refl _).setMember _ (.text a b)

/-! ### The enforcement of a run -/

variable (x) in
/-- The services of the enforcement point, from the introspection on. -/
def services (t : List Event) (c : Call) : c.Reply := x.env (t.map ofPep) (.pep c)

private theorem checked_enforcement {rt : Runtime} {agent : BaseAgent} {s s' : Session}
    {t : List AgentEvent} {out : Except PyExn Unit} (h : Checked rt agent s t out s') :
    (enforcement t = [] ∧ ∀ spec, agent.registry.get s.state.toolKey = .ok spec →
        actionRequest? agent spec s.state = none) ∨
      ∃ spec request u v out' p, agent.registry.get s.state.toolKey = .ok spec ∧
        actionRequest? agent spec s.state = some request ∧
        Py.Run (enforce rt) ⟨s.pep, request⟩ u out' p ∧ t = u.map ofPep ++ v ∧
        enforcement v = [] := by
  cases h with
  | unavailable message hg =>
    refine .inl ⟨rfl, fun spec hs ↦ ?_⟩
    cases hg.symm.trans hs
  | invalid spec hg hr =>
    refine .inl ⟨rfl, fun spec' hs ↦ ?_⟩
    cases hg.symm.trans hs
    exact hr
  | allowed spec hg request hr he =>
    exact .inr ⟨spec, request, _, [], _, _, hg, hr, he, (List.append_nil _).symm, rfl⟩
  | refused spec hg request hr e he hd =>
    refine .inr ⟨spec, request, _, _, _, _, hg, hr, he, rfl, ?_⟩
    cases hd <;> rfl

/-- A run checks after it fetched a token, and enforces nothing afterwards. -/
theorem invoked_checked {rt : Runtime} {agent : BaseAgent} {s s' : Session}
    {t : List AgentEvent} {out : Except PyExn Unit} (h : Invoked rt agent s t out s') :
    (∃ e s₁, Fetched agent s t (.error e) s₁) ∨
      ∃ u v w s₁ s₂ out', Fetched agent s u (.ok ()) s₁ ∧ Checked rt agent s₁ v out' s₂ ∧
        t = u ++ (v ++ w) ∧ enforcement w = [] := by
  cases h with
  | unfetched hf => exact .inl ⟨_, _, hf⟩
  | unchecked hf hc => exact .inr ⟨_, _, [], _, _, _, hf, hc, by rw [List.append_nil], rfl⟩
  | blocked hf hc eventId timestamp hr => exact .inr ⟨_, _, _, _, _, _, hf, hc, rfl, rfl⟩
  | executed hf hc eventId timestamp hr he ha =>
    refine .inr ⟨_, _, _, _, _, _, hf, hc, rfl, ?_⟩
    rw [enforcement_append, enforcement_append]
    cases he <;> cases ha <;> rfl

/-- A run without a request enforces nothing, and one with a request enforces it against the
services. -/
theorem enforced (x : Setting) (token : String) :
    (x.request? token = none ∧ enforcement (x.trace token) = []) ∨
      ∃ request out p, x.request? token = some request ∧
        Py.Run (enforce x.rt) ⟨x.pep, request⟩ (enforcement (x.trace token)) out p ∧
        Prog.Answers x.services [] (enforcement (x.trace token)) := by
  have hr := Py.run_exec (x.issuing token) (invoke x.rt x.agent) ⟨x.pep, x.args.initialState⟩
  have ha := Prog.answers_exec (x.issuing token)
    (invoke x.rt x.agent ⟨x.pep, x.args.initialState⟩) []
  change Py.Run _ _ (x.trace token) _ _ at hr
  change Prog.Answers _ _ (x.trace token) at ha
  generalize x.trace token = t at hr ha ⊢
  rcases invoked_checked (invoke_run hr) with ⟨e, s₁, hf⟩ | ⟨u, v, w, s₁, s₂, out, hf, hc, rfl, hw⟩
  · left
    cases hf with
    | tokenFailed cls => cases ha.1
    | introspectFailed token' cls =>
      have hx : x.claims = .error cls := ha.2.1.symm
      exact ⟨by rw [request?, hx]; rfl, rfl⟩
  cases hf with
  | fetched token' claims =>
    obtain ⟨ht, hx, ha⟩ := ha
    cases ht
    have hx : x.claims = .ok claims := hx.symm
    have hq : x.request? token = (x.agent.registry.get x.args.toolKey).toOption.bind fun spec ↦
        actionRequest? x.agent spec (x.args.initialState.withToken token claims) := by
      rw [request?, hx]
      rfl
    rcases checked_enforcement hc with
      ⟨he, hn⟩ | ⟨spec, request, u, z, out', p, hg, hv, hu, rfl, hz⟩
    · left
      refine ⟨?_, ?_⟩
      · rw [hq]
        cases hg : x.agent.registry.get x.args.toolKey with
        | error message => rfl
        | ok spec => exact hn spec hg
      · rw [enforcement_append, enforcement_append, he, hw]
        rfl
    · right
      have hg : x.agent.registry.get x.args.toolKey = .ok spec := hg
      simp only [enforcement_append, enforcement_ofPep, hz, hw, List.append_nil]
      show ∃ request out p, _ ∧ Py.Run _ _ u out p ∧ Prog.Answers _ [] u
      refine ⟨request, out', p, ?_, hu, ?_⟩
      · rw [hq, hg]
        exact hv
      · -- the services are shown what the environment is shown after the two calls for the token
        change Prog.Answers _ _ (u.map ofPep ++ z ++ w) at ha
        have hb := (Prog.answers_append.mp (Prog.answers_append.mp ha).1).1
        rw [← List.append_nil (_ ++ _)] at hb
        exact Prog.answers_map (h := []) (fun h e he ↦ he) hb

/-! ### Two runs -/

/-- Whether a run asks the policy engine does not depend on its token. -/
theorem Asks.congr (h : x.Asks a) (b : String) : x.Asks b := by
  obtain ⟨request, hq, hp⟩ := h
  obtain ⟨context, hq', hc⟩ := request?_retexted hq b
  rcases enforced x a with ⟨hn, -⟩ | ⟨_, out, p, hq₁, he, ha⟩
  · cases hn.symm.trans hq
  rcases enforced x b with ⟨hn, -⟩ | ⟨_, out', p', hq₂, he', ha'⟩
  · cases hn.symm.trans hq'
  cases hq₁.symm.trans hq
  cases hq₂.symm.trans hq'
  refine ⟨_, hq', ?_⟩
  by_contra hn
  have hd := (enforce_run he').posted
  obtain ⟨hp', -⟩ | ⟨-, hp', hc'⟩ := hd
  · exact hn hp'
  -- the run with the first token posts, that with the second makes the same calls
  obtain ⟨-, hpost⟩ | ⟨hn', -⟩ := (enforce_run he).posted
  · rcases (actAlike_enforce _ _ (.mk x.pep request context hc)).runs he he' ha ha' with
      ⟨ht, -⟩ | ⟨-, e, he, hs⟩
    · rw [ht, hp'] at hpost
      cases hpost
    · exact not_holdsContext hp' hc' he hs
  · exact hn' hp

/-- A run that asks discloses its token to the policy engine. -/
theorem posted_of_asks (h : x.Asks token) : ∃ request : ActionRequest,
    request.context.lookup "_token" = some (.str token) ∧
      (x.disclosed token).posted = [opaInput request] := by
  obtain ⟨request, hq, hp⟩ := h
  rcases enforced x token with ⟨hn, -⟩ | ⟨_, out, p, hq', he, -⟩
  · cases hn.symm.trans hq
  cases hq'.symm.trans hq
  obtain ⟨-, hd⟩ | ⟨hn, -⟩ := (enforce_run he).posted
  · exact ⟨_, token_of_sent hq _, hd⟩
  · exact absurd hp hn

/-- A run that does not ask discloses nothing. -/
theorem disclosed_of_not_asks (h : ¬ x.Asks token) : x.disclosed token = ⟨[], []⟩ := by
  rw [disclosed]
  rcases enforced x token with ⟨-, he⟩ | ⟨request, out, p, hq, he, -⟩
  · rw [he]
    rfl
  · obtain ⟨hp, -⟩ | ⟨-, hp, hc⟩ := (enforce_run he).posted
    · exact absurd ⟨request, hq, hp⟩ h
    · rw [hp, hc]
      rfl

/-- What two runs that differ in their tokens disclose is the same exactly if the tokens are, or
they do not get as far as the policy engine. -/
theorem disclosed_eq_iff (x : Setting) (a b : String) :
    x.disclosed a = x.disclosed b ↔ a = b ∨ ¬ x.Asks a := by
  constructor
  · intro h
    by_cases ha : x.Asks a
    · left
      obtain ⟨request, ht, hd⟩ := posted_of_asks ha
      obtain ⟨request', ht', hd'⟩ := posted_of_asks (ha.congr b)
      rw [h, hd'] at hd
      rw [context_of_opaInput (List.singleton_inj.mp hd), ht] at ht'
      cases ht'
      rfl
    · exact .inr ha
  · rintro (rfl | h)
    · rfl
    · have hb : ¬ x.Asks b := fun hb ↦ h (hb.congr a)
      rw [disclosed_of_not_asks h, disclosed_of_not_asks hb]

/-! ### Reading an object -/

/-- Files that can be written, and a tool that permits. -/
def permitting : List CliEvent → (c : CliCall) → c.Reply
  | _, .pathExists _ => true
  | t, .tempfile => .ok s!"/tmp/{t.length}.json"
  | _, .dump .. => .ok ()
  | _, .run _ => .completed "ALLOW"
  | _, .unlink _ => .ok ()

/-- The reading of an object that every layer allows. -/
def reading : Setting where
  rt := asciiRuntime
  lc := .plain
  agent := readingAgent
  pep := ⟨"http://localhost:8181", false⟩
  args := objectArgs
  claims := .ok (.obj [])
  env := fun _ ↦ answering (decided "ALLOW") (.ok (.other .null))
  evaluator := ⟨"policy/cedar", true⟩
  cli := permitting

/-- The token is posted to the policy engine and written for the command line tool, each time in
the context, and so another token is another disclosure. -/
theorem reading_discloses :
    (reading.disclosed "eyJhIn0").posted.map (·.path? ["input", "context", "_token"]) =
        [some (.str "eyJhIn0")] ∧
      (reading.disclosed "eyJhIn0").written.map (·.path? ["context", "_token"]) =
        [none, some (.str "eyJhIn0")] ∧
      reading.disclosed "eyJhIn0" ≠ reading.disclosed "eyJiIn0" := by
  decide +kernel

end Setting
end NhiSentinel.Agents
