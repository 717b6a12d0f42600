import Mathlib.Data.List.Induction
import NhiSentinel.Base.Program
import NhiSentinel.Base.Value

/-!
# Tokens

`TokenManager` of `identity/token_manager.py`: the acquisition of access tokens as programs
over the clock, the signing library and the identity provider, and which token a call gets
when one is cached. Points in time are in microseconds; logging is left out.
-/

namespace NhiSentinel.Identity
open NhiSentinel.Base

/-- `agent_context`, `token_manager.py:109`: what a call asks a token for. -/
structure AgentContext where
  taskId : String
  environment : String
  sourceIp : String
  deriving DecidableEq

/-- The payload of an assertion, `token_manager.py:102`. -/
structure AssertionPayload where
  iss : String
  sub : String
  aud : String
  iat : Int
  exp : Int
  jti : String
  agentContext : AgentContext

/-- What the identity provider answers, with the access token of its body, or the exception that
is raised where it has none. -/
structure TokenResponse where
  statusCode : Nat
  text : String
  accessToken : Except String Value

/-- The parts of `Settings`, `identity/config.py:6`, that are for tokens. -/
structure Settings where
  keycloakUrl : String := "http://localhost:8080"
  keycloakRealm : String := "nhi"
  tokenTtlSeconds : Int := 900
  assertionTtlSeconds : Int := 60

/-- `TokenManager`, `token_manager.py:29`. -/
structure TokenManager where
  agentId : String
  settings : Settings
  tokenEndpoint : String
  privateKeyPem : Option String
  cachedToken : Option Value
  tokenExpiresAt : Int

/-- The exceptions of the manager, and those of its libraries by class name. -/
inductive TokenExn where
  | runtimeError (message : String)
  | tokenAcquisition (message : String)
  | other (cls : String)

/-- The calls that leave the manager. -/
inductive TokenCall where
  | time
  | uuid4
  /-- `jwt.encode`. -/
  | encode (payload : AssertionPayload) (key : String)
  /-- `httpx.post`. -/
  | post (url assertion clientId : String)

/-- What a call is answered. -/
@[reducible] def TokenCall.Reply : TokenCall → Type
  | time => Int
  | uuid4 => String
  | encode .. => Except String String
  | post .. => Except String TokenResponse

/-- A call together with its reply. -/
abbrev TokenEvent := Sigma TokenCall.Reply

/-- A method of the manager. -/
abbrev TokenMethod := Py TokenManager TokenExn TokenCall TokenCall.Reply

namespace TokenManager

/-- `TokenManager.__init__`, `token_manager.py:32`. -/
def new (agentId : String) (settings : Settings) : TokenManager where
  agentId := agentId
  settings := settings
  tokenEndpoint := s!"{settings.keycloakUrl}/realms/{settings.keycloakRealm}" ++
    "/protocol/openid-connect/token"
  privateKeyPem := none
  cachedToken := none
  tokenExpiresAt := 0

/-- `load_key_from_string`, `token_manager.py:52`. -/
def loadKeyFromString (manager : TokenManager) (pem : String) : TokenManager :=
  { manager with privateKeyPem := some pem }

/-- Call the environment. -/
def ask (c : TokenCall) : TokenMethod c.Reply := Py.ask c

/-- The payload that a manager signs. -/
def payload (manager : TokenManager) (context : AgentContext) (now : Int) (jti : String) :
    AssertionPayload where
  iss := manager.agentId
  sub := manager.agentId
  aud := manager.tokenEndpoint
  iat := now.tdiv 1000000
  exp := now.tdiv 1000000 + manager.settings.assertionTtlSeconds
  jti := jti
  agentContext := context

/-- `_build_assertion`, `token_manager.py:100`. -/
def buildAssertion (context : AgentContext) (key : String) : TokenMethod String := do
  let manager ← Py.read
  let now : Int ← ask .time
  let jti : String ← ask .uuid4
  let assertion : Except String String ← ask (.encode (manager.payload context now jti) key)
  Py.ofExcept (assertion.mapError .other)

/-- `_acquire_token`, `token_manager.py:69`. -/
def acquireToken (context : AgentContext) : TokenMethod Value := do
  let manager ← Py.read
  match manager.privateKeyPem.filter (· ≠ "") with
  | none => Py.raise (.runtimeError "Private key not loaded. Call load_key_from_file() first.")
  | some key => do
    let assertion ← buildAssertion context key
    let reply : Except String TokenResponse ←
      ask (.post manager.tokenEndpoint assertion manager.agentId)
    let resp ← Py.ofExcept (reply.mapError .other)
    if resp.statusCode ≠ 200 then
      Py.raise (.tokenAcquisition s!"Keycloak returned {resp.statusCode}: {resp.text}")
    else Py.ofExcept (resp.accessToken.mapError .other)

/-- The cached token is good at a time, with a buffer of 30 seconds. -/
def Fresh (manager : TokenManager) (now : Int) : Prop :=
  now < manager.tokenExpiresAt - 30 * 1000000

instance (manager : TokenManager) (now : Int) : Decidable (manager.Fresh now) :=
  inferInstanceAs (Decidable (_ < _))

/-- The cached token if there is one and it is good, `token_manager.py:62`. -/
def cached : TokenMethod (Option Value) := do
  let manager ← Py.read
  match manager.cachedToken.filter Value.truthy with
  | none => pure none
  | some token => do
    let now : Int ← ask .time
    pure (if manager.Fresh now then some token else none)

/-- `get_token`, `token_manager.py:59`. -/
def getToken (context : AgentContext) : TokenMethod Value := do
  match ← cached with
  | some token => pure token
  | none => do
    let token ← acquireToken context
    Py.update fun manager ↦ { manager with cachedToken := some token }
    let now : Int ← ask .time
    Py.update fun manager ↦
      { manager with tokenExpiresAt := now + manager.settings.tokenTtlSeconds * 1000000 }
    pure token

/-! ### Runs -/

variable {manager manager' : TokenManager} {context : AgentContext} {t : List TokenEvent}

/-- The calls for a token: without a key there are none; otherwise an assertion is made and sent,
unless one of the libraries raises. -/
inductive Acquires (manager : TokenManager) (context : AgentContext) :
    List TokenEvent → Except TokenExn Value → Prop where
  | keyless (e : TokenExn) : Acquires manager context [] (.error e)
  | unsigned (now : Int) (jti key cls : String) :
      Acquires manager context [⟨.time, now⟩, ⟨.uuid4, jti⟩,
        ⟨.encode (manager.payload context now jti) key, .error cls⟩] (.error (.other cls))
  | unanswered (now : Int) (jti key assertion cls : String) :
      Acquires manager context [⟨.time, now⟩, ⟨.uuid4, jti⟩,
        ⟨.encode (manager.payload context now jti) key, .ok assertion⟩,
        ⟨.post manager.tokenEndpoint assertion manager.agentId, .error cls⟩] (.error (.other cls))
  | refused (now : Int) (jti key assertion : String) (resp : TokenResponse) (e : TokenExn) :
      Acquires manager context [⟨.time, now⟩, ⟨.uuid4, jti⟩,
        ⟨.encode (manager.payload context now jti) key, .ok assertion⟩,
        ⟨.post manager.tokenEndpoint assertion manager.agentId, .ok resp⟩] (.error e)
  | granted (now : Int) (jti key assertion text : String) (token : Value) :
      Acquires manager context [⟨.time, now⟩, ⟨.uuid4, jti⟩,
        ⟨.encode (manager.payload context now jti) key, .ok assertion⟩,
        ⟨.post manager.tokenEndpoint assertion manager.agentId, .ok ⟨200, text, .ok token⟩⟩]
        (.ok token)

/-- An assertion is made at some time under some identifier, and signed. -/
theorem buildAssertion_run {key : String} {out : Except TokenExn String} :
    Py.Run (buildAssertion context key) manager t out manager' ↔ ∃ now jti reply,
      t = [⟨.time, now⟩, ⟨.uuid4, jti⟩,
        ⟨.encode (manager.payload context now jti) key, reply⟩] ∧
        out = reply.mapError .other ∧ manager' = manager := by
  simp only [buildAssertion, ask, Py.run_read_bind, Py.run_ask_bind, Py.run_ofExcept]
  constructor
  · rintro ⟨now, _, rfl, jti, _, rfl, reply, _, rfl, rfl, rfl, rfl⟩
    exact ⟨now, jti, reply, rfl, rfl, rfl⟩
  · rintro ⟨now, jti, reply, rfl, rfl, rfl⟩
    exact ⟨now, _, rfl, jti, _, rfl, reply, _, rfl, rfl, rfl, rfl⟩

/-- An acquisition keeps the manager as it is. -/
theorem acquireToken_run {out : Except TokenExn Value}
    (h : Py.Run (acquireToken context) manager t out manager') :
    Acquires manager context t out ∧ manager' = manager := by
  simp only [acquireToken, Py.run_read_bind] at h
  cases hk : manager.privateKeyPem.filter (· ≠ "") with
  | none =>
    simp only [hk, Py.run_raise] at h
    obtain ⟨rfl, rfl, rfl⟩ := h
    exact ⟨.keyless _, rfl⟩
  | some key =>
    simp only [hk, ask] at h
    rw [Py.run_bind] at h
    simp only [buildAssertion_run, Py.run_ask_bind] at h
    rcases h with ⟨e, ⟨now, jti, reply, rfl, he, rfl⟩, rfl⟩ |
      ⟨assertion, _, _, _, rfl, ⟨now, jti, signed, rfl, hs, rfl⟩, reply, t, rfl, h⟩
    · cases reply with
      | error cls =>
        cases he
        exact ⟨.unsigned now jti key cls, rfl⟩
      | ok assertion => cases he
    · cases signed with
      | error cls => cases hs
      | ok _ =>
        cases hs
        cases reply with
        | error cls =>
          simp only [Except.mapError, Py.run_ofExcept_error_bind] at h
          obtain ⟨rfl, rfl, rfl⟩ := h
          exact ⟨.unanswered now jti key assertion cls, rfl⟩
        | ok resp =>
          simp only [Except.mapError, Py.run_ofExcept_ok_bind] at h
          obtain ⟨statusCode, text, accessToken⟩ := resp
          by_cases hc : statusCode = 200
          · subst hc
            rw [if_neg (not_not_intro rfl), Py.run_ofExcept] at h
            obtain ⟨rfl, rfl, rfl⟩ := h
            cases accessToken with
            | error cls => exact ⟨.refused now jti key assertion _ _, rfl⟩
            | ok token => exact ⟨.granted now jti key assertion text token, rfl⟩
          · rw [if_pos hc, Py.run_raise] at h
            obtain ⟨rfl, rfl, rfl⟩ := h
            exact ⟨.refused now jti key assertion _ _, rfl⟩

/-- The cached token that is good at a time. -/
def Answers (manager : TokenManager) (now : Int) (token : Value) : Prop :=
  manager.cachedToken = some token ∧ token.truthy = true ∧ manager.Fresh now

/-- The calls that find no good token in the cache. -/
def Misses (manager : TokenManager) (t : List TokenEvent) : Prop :=
  manager.cachedToken.filter Value.truthy = none ∧ t = [] ∨
    ∃ now, ¬ manager.Fresh now ∧ t = [⟨.time, now⟩]

/-- What a call of `get_token` can do: answer from the cache, fail with the cache unchanged, or
answer with a token that it has acquired. -/
inductive Gets (manager : TokenManager) (context : AgentContext) :
    List TokenEvent → Except TokenExn Value → TokenManager → Prop where
  | cached (now : Int) (token : Value) (h : manager.Answers now token) :
      Gets manager context [⟨.time, now⟩] (.ok token) manager
  | failed (t u : List TokenEvent) (e : TokenExn) (hm : manager.Misses t)
      (ha : manager.Acquires context u (.error e)) :
      Gets manager context (t ++ u) (.error e) manager
  | acquired (t u : List TokenEvent) (token : Value) (hm : manager.Misses t)
      (ha : manager.Acquires context u (.ok token)) (now : Int) :
      Gets manager context (t ++ (u ++ [⟨.time, now⟩])) (.ok token)
        { manager with
          cachedToken := some token
          tokenExpiresAt := now + manager.settings.tokenTtlSeconds * 1000000 }

private theorem cached_run {out : Except TokenExn (Option Value)}
    (h : Py.Run cached manager t out manager') : manager' = manager ∧
      ((out = .ok none ∧ manager.Misses t) ∨
        ∃ now token, out = .ok (some token) ∧ manager.Answers now token ∧ t = [⟨.time, now⟩]) := by
  simp only [cached, Py.run_read_bind] at h
  cases hc : manager.cachedToken.filter Value.truthy with
  | none =>
    simp only [hc, Py.run_pure] at h
    obtain ⟨rfl, rfl, rfl⟩ := h
    exact ⟨rfl, .inl ⟨rfl, .inl ⟨hc, rfl⟩⟩⟩
  | some token =>
    obtain ⟨ht, htruthy⟩ := Option.filter_eq_some_iff.mp hc
    simp only [hc, ask, Py.run_ask_bind, Py.run_pure] at h
    obtain ⟨now, _, rfl, rfl, rfl, rfl⟩ := h
    refine ⟨rfl, ?_⟩
    by_cases hf : manager'.Fresh now
    · rw [if_pos hf]
      exact .inr ⟨now, token, rfl, ⟨ht, htruthy, hf⟩, rfl⟩
    · rw [if_neg hf]
      exact .inl ⟨rfl, .inr ⟨now, hf, rfl⟩⟩

/-- A run of `getToken` finds the token in the cache or fetches one. -/
theorem getToken_run {out : Except TokenExn Value}
    (h : Py.Run (getToken context) manager t out manager') :
    Gets manager context t out manager' := by
  rw [getToken, Py.run_bind] at h
  rcases h with ⟨e, h, rfl⟩ | ⟨found, t, u, m, rfl, hf, h⟩
  · rcases (cached_run h).2 with ⟨he, -⟩ | ⟨_, _, he, -⟩ <;> cases he
  obtain ⟨rfl, ⟨he, hm⟩ | ⟨now, token, he, ha, rfl⟩⟩ := cached_run hf
  · cases he
    simp only [ask] at h
    rw [Py.run_bind] at h
    simp only [Py.run_update_bind, Py.run_ask_bind, Py.run_pure] at h
    rcases h with ⟨e, h, rfl⟩ | ⟨token, v, _, m, rfl, ha, now, _, rfl, rfl, rfl, rfl⟩
    · obtain ⟨ha, rfl⟩ := acquireToken_run h
      exact .failed t u e hm ha
    · obtain ⟨ha, rfl⟩ := acquireToken_run ha
      exact .acquired t v token hm ha now
  · cases he
    rw [Py.run_pure] at h
    obtain ⟨rfl, rfl, rfl⟩ := h
    exact .cached now token ha

/-! ### Histories -/

/-- A call of `get_token` with what it was given, its calls and how it ended. -/
structure TokenUse where
  context : AgentContext
  trace : List TokenEvent
  outcome : Except TokenExn Value

/-- Calls of one manager, one after the other. -/
inductive Uses (start : TokenManager) : List TokenUse → TokenManager → Prop where
  | nil : Uses start [] start
  | snoc {uses : List TokenUse} {manager manager' : TokenManager} (h : Uses start uses manager)
      (u : TokenUse) (hr : Py.Run (getToken u.context) manager u.trace u.outcome manager') :
      Uses start (uses ++ [u]) manager'

/-- A token was acquired by the calls of a trace with the assertion of a payload. -/
def Granted (t : List TokenEvent) (payload : AssertionPayload) (token : Value) : Prop :=
  ∃ key assertion url clientId text, ⟨.encode payload key, .ok assertion⟩ ∈ t ∧
    ⟨.post url assertion clientId, .ok ⟨200, text, .ok token⟩⟩ ∈ t

/-- What is promised of the tokens: each one that is returned was acquired, by this call or one
before, with an assertion for just what this call was given. -/
def ContextBound (uses : List TokenUse) : Prop :=
  ∀ before u after, uses = before ++ u :: after → ∀ token, u.outcome = .ok token →
    ∃ v ∈ before ++ [u], ∃ payload, Granted v.trace payload token ∧
      payload.agentContext = u.context

/-- A call that finds a good token in the cache is given what an earlier call was given that
acquired this token. -/
def CacheRepeats (start : TokenManager) (uses : List TokenUse) : Prop :=
  ∀ before u after manager now token, uses = before ++ u :: after → Uses start before manager →
    u.trace.head? = some ⟨.time, now⟩ → manager.Answers now token →
      ∃ v ∈ before, v.context = u.context ∧ ∃ payload, Granted v.trace payload token

private theorem Misses.not_mem (h : manager.Misses t) {payload : AssertionPayload}
    {key assertion : String} :
    ⟨.encode payload key, .ok assertion⟩ ∉ t := by
  intro hm
  rcases h with ⟨-, rfl⟩ | ⟨now, -, rfl⟩
  · cases hm
  · cases List.mem_singleton.mp hm

/-- A cache that is missed has no answer at the time that was read. -/
theorem Misses.head?_ne (h : manager.Misses t) {now : Int} {token : Value}
    (ha : manager.Answers now token) (u : List TokenEvent) :
    (t ++ u).head? ≠ some ⟨.time, now⟩ := by
  intro hh
  rcases h with ⟨hc, -⟩ | ⟨now', hn, rfl⟩
  · rw [ha.1, Option.filter_some, if_pos ha.2.1] at hc
    cases hc
  · cases hh
    exact hn ha.2.2

/-- A good token in the cache is the answer. -/
theorem Gets.of_answers {out : Except TokenExn Value} (h : manager.Gets context t out manager')
    {now : Int} {token : Value} (ha : manager.Answers now token)
    (hh : t.head? = some ⟨.time, now⟩) : t = [⟨.time, now⟩] ∧ out = .ok token := by
  cases h with
  | cached now' token' ha' =>
    cases hh
    cases ha.1.symm.trans ha'.1
    exact ⟨rfl, rfl⟩
  | failed _ _ _ hm | acquired _ _ _ hm => exact absurd hh (hm.head?_ne ha _)

/-- A token that is returned was acquired by the call or is the good one in the cache. -/
theorem Gets.of_ok {token : Value} (h : manager.Gets context t (.ok token) manager') :
    (∃ payload, Granted t payload token) ∨
      ∃ now, t = [⟨.time, now⟩] ∧ manager.Answers now token := by
  cases h with
  | cached now token ha => exact .inr ⟨now, rfl, ha⟩
  | acquired t u token hm ha now =>
    cases ha with
    | granted now' jti key assertion text =>
      refine .inl ⟨manager.payload context now' jti, key, assertion, manager.tokenEndpoint,
        manager.agentId, text, ?_, ?_⟩
      · simp
      · simp

/-- Every assertion that a call makes is for what it was given. -/
theorem Gets.context_eq {out : Except TokenExn Value} (h : manager.Gets context t out manager')
    {payload : AssertionPayload} {token : Value} (hg : Granted t payload token) :
    payload.agentContext = context := by
  obtain ⟨key, assertion, _, _, _, hm, -⟩ := hg
  have hacq {u : List TokenEvent} {out : Except TokenExn Value}
      (ha : manager.Acquires context u out) (hm : ⟨.encode payload key, .ok assertion⟩ ∈ u) :
      payload.agentContext = context := by
    cases ha <;> simp at hm
    all_goals
      obtain ⟨rfl, -⟩ := hm.1
      rfl
  cases h with
  | cached now token ha => cases List.mem_singleton.mp hm
  | failed t u e hmiss ha => exact hacq ha ((List.mem_append.mp hm).resolve_left hmiss.not_mem)
  | acquired t u token hmiss ha now =>
    have hu := (List.mem_append.mp hm).resolve_left hmiss.not_mem
    rcases List.mem_append.mp hu with hu | hu
    · exact hacq ha hu
    · cases List.mem_singleton.mp hu

section
variable {start : TokenManager} {uses before after : List TokenUse} {u : TokenUse}

/-- The calls and their replies determine the manager. -/
theorem Uses.unique (h : Uses start uses manager) (h' : Uses start uses manager') :
    manager = manager' := by
  induction h generalizing manager' with
  | nil =>
    generalize hn : ([] : List TokenUse) = l at h'
    cases h' with
    | nil => rfl
    | snoc => simp at hn
  | @snoc uses m m₁ h u hr ih =>
    generalize hl : uses ++ [u] = l at h'
    cases h' with
    | nil => simp at hl
    | snoc h' u' hr' =>
      obtain ⟨rfl, he⟩ := List.append_inj' hl rfl
      cases he
      cases ih h'
      exact congrArg Prod.snd (Prog.Run.unique hr hr')

/-- Every call of a history is a run on the manager that the calls before have left. -/
theorem Uses.split (h : Uses start uses manager) (hs : uses = before ++ u :: after) :
    ∃ m m', Uses start before m ∧ m.Gets u.context u.trace u.outcome m' := by
  induction h generalizing after with
  | nil => simp at hs
  | @snoc uses m m' h v hr ih =>
    induction after using List.reverseRecOn with
    | nil =>
      obtain ⟨rfl, he⟩ := List.append_inj' hs rfl
      cases he
      exact ⟨m, m', h, getToken_run hr⟩
    | append_singleton after w _ =>
      rw [← List.cons_append, ← List.append_assoc] at hs
      exact ih (List.append_inj' hs rfl).1

/-- An assertion of an earlier call is for what this call was given. -/
theorem Uses.context_eq (h : Uses start uses manager) (hu : u ∈ uses) {payload : AssertionPayload}
    {token : Value} (hg : Granted u.trace payload token) : payload.agentContext = u.context := by
  obtain ⟨before, after, hs⟩ := List.append_of_mem hu
  obtain ⟨m, m', -, hgets⟩ := h.split hs
  exact hgets.context_eq hg

/-- All tokens are for the calls that get them exactly when whatever is answered from the cache
repeats what the token was acquired for. -/
theorem contextBound_iff_cacheRepeats (h : Uses start uses manager) :
    ContextBound uses ↔ CacheRepeats start uses := by
  constructor
  · intro hb before u after m now token hs hm hhead ha
    obtain ⟨m', m'', hm', hgets⟩ := h.split hs
    cases hm.unique hm'
    obtain ⟨ht, ho⟩ := hgets.of_answers ha hhead
    obtain ⟨v, hv, payload, hg, hp⟩ := hb before u after hs token ho
    rcases List.mem_append.mp hv with hv | hv
    · exact ⟨v, hv, (hm.context_eq hv hg).symm.trans hp, payload, hg⟩
    · -- a call that is answered from the cache has acquired nothing
      rw [List.mem_singleton.mp hv, ht] at hg
      obtain ⟨key, assertion, _, _, _, he, -⟩ := hg
      cases List.mem_singleton.mp he
  · intro hc before u after hs token ho
    obtain ⟨m, m', hm, hgets⟩ := h.split hs
    rcases (ho ▸ hgets).of_ok with ⟨payload, hg⟩ | ⟨now, ht, ha⟩
    · exact ⟨u, List.mem_append_right _ (List.mem_singleton_self _), payload, hg,
        hgets.context_eq hg⟩
    · obtain ⟨v, hv, hvu, payload, hg⟩ := hc before u after m now token hs hm (by rw [ht]; rfl) ha
      exact ⟨v, List.mem_append_left _ hv, payload, hg, (hm.context_eq hv hg).trans hvu⟩

end

/-! ### Two tasks -/

/-- A manager with a key. -/
def keyedManager : TokenManager := (new "agent-infra-001" {}).loadKeyFromString "pem"

/-- What an agent asks for in a task. -/
def stagingTask (taskId : String) : AgentContext := ⟨taskId, "staging", "10.0.1.10"⟩

/-- Libraries and an identity provider that answer at one time with one token. -/
def granting (c : TokenCall) : c.Reply :=
  match c with
  | .time => (0 : Int)
  | .uuid4 => "00000000-0000-4000-8000-000000000000"
  | .encode .. => .ok "assertion"
  | .post .. => .ok ⟨200, "", .ok (.str "token")⟩

/-- A call on these answers, and the manager after it. -/
def use (manager : TokenManager) (context : AgentContext) : TokenUse × TokenManager :=
  let ran := Py.exec (fun _ ↦ granting) (getToken context) manager
  (⟨context, ran.1, ran.2.1⟩, ran.2.2)

/-- Calls for two tasks. -/
def twoUses (taskId taskId' : String) : List TokenUse :=
  let first := use keyedManager (stagingTask taskId)
  [first.1, (use first.2 (stagingTask taskId')).1]

/-- Uses go on with one more. -/
theorem Uses.use {start : TokenManager} {uses : List TokenUse} (h : Uses start uses manager)
    (context : AgentContext) :
    Uses start (uses ++ [(manager.use context).1]) (manager.use context).2 :=
  h.snoc _ (Py.run_exec (fun _ ↦ granting) (getToken context) manager)

/-- The two uses are a sequence of uses. -/
theorem twoUses_uses (taskId taskId' : String) :
    ∃ manager, Uses keyedManager (twoUses taskId taskId') manager :=
  ⟨_, (Uses.nil.use (stagingTask taskId)).use (stagingTask taskId')⟩

/-- A token that is used twice for one task. -/
theorem contextBound_iff_cacheRepeats_twoUses :
    ContextBound (twoUses "task-001" "task-001") ↔
      CacheRepeats keyedManager (twoUses "task-001" "task-001") := by
  obtain ⟨manager, h⟩ := twoUses_uses "task-001" "task-001"
  exact contextBound_iff_cacheRepeats h

/-- The second task is given the token of the first. -/
theorem twoUses_unbound : (∃ manager, Uses keyedManager (twoUses "task-001" "task-002") manager) ∧
    (twoUses "task-001" "task-002").map TokenUse.outcome =
      [.ok (.str "token"), .ok (.str "token")] ∧
    ¬ ContextBound (twoUses "task-001" "task-002") := by
  obtain ⟨manager, h⟩ := twoUses_uses "task-001" "task-002"
  refine ⟨⟨manager, h⟩, rfl, fun hb ↦ ?_⟩
  obtain ⟨v, hv, payload, hg, hp⟩ := hb [_] _ [] rfl (.str "token") rfl
  have hc := (h.context_eq hv hg).symm.trans hp
  rcases List.mem_cons.mp hv with rfl | hv
  · exact absurd hc (by decide)
  · cases List.mem_singleton.mp hv
    obtain ⟨key, assertion, _, _, _, he, -⟩ := hg
    cases List.mem_singleton.mp he

end TokenManager
end NhiSentinel.Identity
