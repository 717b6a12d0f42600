import Mathlib.Data.List.Forall2
import NhiSentinel.Base.Replace
import NhiSentinel.Identity.Administration
import NhiSentinel.Identity.TokenLifetime

/-!
# Introspection of tokens

`introspect`, and what an agent does with it when it fetches its token: the token of `get_token`
is shown to the identity provider. What is learned of it stays with the claims; the token manager
keeps the token all the same.
-/

namespace NhiSentinel.Identity
open NhiSentinel.Base

/-- The payload of an introspection's assertion, `token_manager.py:138`. -/
structure IntrospectionPayload where
  iss : String
  sub : String
  aud : String
  iat : Int
  exp : Int
  jti : String

/-- The calls of an agent that fetches its token. -/
inductive FetchCall where
  /-- A call of `get_token`; the time and an identifier are also for `introspect`. -/
  | token (c : TokenCall)
  /-- `jwt.encode`, for an introspection. -/
  | encode (payload : IntrospectionPayload) (key : Option String)
  /-- `httpx.post`, for an introspection. -/
  | post (url : String) (token : Value) (clientId assertion : String)

/-- What a call is answered. -/
@[reducible] def FetchCall.Reply : FetchCall → Type
  | token c => c.Reply
  | encode .. => Except String String
  | post .. => Except String Answer

/-- A call together with its reply. -/
abbrev FetchEvent := Sigma FetchCall.Reply

/-- A method of the manager that makes these calls. -/
abbrev FetchMethod := Py TokenManager TokenExn FetchCall FetchCall.Reply

namespace TokenManager

/-- The endpoint for introspection, `token_manager.py:124`: every `/token` of the other endpoint
is replaced. -/
def introspectEndpoint (manager : TokenManager) : String :=
  String.ofList (Python.replaceAll "/token".toList "/introspect".toList
    manager.tokenEndpoint.toList)

/-- The payload that a manager signs for an introspection. -/
def introspectionPayload (manager : TokenManager) (now : Int) (jti : String) :
    IntrospectionPayload where
  iss := manager.agentId
  sub := manager.agentId
  aud := manager.introspectEndpoint
  iat := now.tdiv 1000000
  exp := now.tdiv 1000000 + 30
  jti := jti

/-- Call the environment. -/
def call (c : FetchCall) : FetchMethod c.Reply := Py.ask c

/-- A method of `TokenManager` that only makes the calls of `get_token`. -/
def ofToken {α : Type} (m : TokenMethod α) : FetchMethod α := fun manager ↦
  (m manager).embed .token fun _ reply ↦ reply

/-- `_build_introspect_assertion`, `token_manager.py:136`. -/
def buildIntrospectAssertion : FetchMethod String := do
  let manager ← Py.read
  let now : Int ← call (.token .time)
  let jti : String ← call (.token .uuid4)
  let assertion : Except String String ←
    call (.encode (manager.introspectionPayload now jti) manager.privateKeyPem)
  Py.ofExcept (assertion.mapError .other)

/-- `introspect`, `token_manager.py:121`. -/
def introspect (token : Value) : FetchMethod Value := do
  let manager ← Py.read
  let assertion ← buildIntrospectAssertion
  let reply : Except String Answer ←
    call (.post manager.introspectEndpoint token manager.agentId assertion)
  let resp ← Py.ofExcept (reply.mapError .other)
  if Pep.isSuccess resp.statusCode then Py.ofExcept (resp.json.mapError .other)
  else Py.raise (.other "HTTPStatusError")

/-- What `_node_fetch_token`, `agent.py:105`, has of its token manager: a token and its claims. -/
def fetch (context : AgentContext) : FetchMethod (Value × Value) := do
  let token ← ofToken (getToken context)
  let claims ← introspect token
  pure (token, claims)

/-- With nothing else that begins with `/token` in the address and the realm, the introspection
endpoint is beside the one for tokens. -/
theorem introspectEndpoint_new (agentId : String) (settings : Settings)
    (h : ¬ "/token".toList <:+: (s!"{settings.keycloakUrl}/realms/{settings.keycloakRealm}" ++
      "/protocol/openid-connect/toke").toList) :
    (new agentId settings).introspectEndpoint =
      s!"{settings.keycloakUrl}/realms/{settings.keycloakRealm}" ++
        "/protocol/openid-connect/introspect" := by
  generalize hb : s!"{settings.keycloakUrl}/realms/{settings.keycloakRealm}" = base at h ⊢
  have ht : (new agentId settings).tokenEndpoint.toList =
      (base ++ "/protocol/openid-connect").toList ++ "/token".toList := by
    rw [new, hb, String.toList_append, String.toList_append, List.append_assoc]
    rfl
  have hd : ((base ++ "/protocol/openid-connect").toList ++ "/token".toList).dropLast =
      (base ++ "/protocol/openid-connect/toke").toList := by
    rw [String.toList_append, String.toList_append, List.append_assoc,
      List.dropLast_append_of_ne_nil (by decide)]
    rfl
  rw [introspectEndpoint, ht, Python.replaceAll_append (by decide) _ (hd ▸ h)]
  rw [← String.toList_inj, String.toList_ofList, String.toList_append, String.toList_append,
    List.append_assoc]
  rfl

/-! ### Runs -/

/-- What a call of `introspect` can do: it makes an assertion and shows the token, unless one of
the libraries raises. -/
inductive Introspects (manager : TokenManager) (token : Value) :
    List FetchEvent → Except TokenExn Value → Prop where
  | unsigned (now : Int) (jti cls : String) :
      Introspects manager token [⟨.token .time, now⟩, ⟨.token .uuid4, jti⟩,
        ⟨.encode (manager.introspectionPayload now jti) manager.privateKeyPem, .error cls⟩]
        (.error (.other cls))
  | failed (now : Int) (jti assertion : String) (reply : Except String Answer) (e : TokenExn) :
      Introspects manager token [⟨.token .time, now⟩, ⟨.token .uuid4, jti⟩,
        ⟨.encode (manager.introspectionPayload now jti) manager.privateKeyPem, .ok assertion⟩,
        ⟨.post manager.introspectEndpoint token manager.agentId assertion, reply⟩] (.error e)
  | answered (now : Int) (jti assertion : String) (statusCode : Nat) (claims : Value)
      (hs : Pep.isSuccess statusCode = true) :
      Introspects manager token [⟨.token .time, now⟩, ⟨.token .uuid4, jti⟩,
        ⟨.encode (manager.introspectionPayload now jti) manager.privateKeyPem, .ok assertion⟩,
        ⟨.post manager.introspectEndpoint token manager.agentId assertion,
          .ok ⟨statusCode, .ok claims⟩⟩] (.ok claims)

section
variable {manager manager' : TokenManager} {context : AgentContext} {t : List FetchEvent}

private theorem buildIntrospectAssertion_run {out : Except TokenExn String} :
    Py.Run buildIntrospectAssertion manager t out manager' ↔ ∃ now jti reply,
      t = [⟨.token .time, now⟩, ⟨.token .uuid4, jti⟩,
        ⟨.encode (manager.introspectionPayload now jti) manager.privateKeyPem, reply⟩] ∧
        out = reply.mapError .other ∧ manager' = manager := by
  simp only [buildIntrospectAssertion, call, Py.run_read_bind, Py.run_ask_bind, Py.run_ofExcept]
  constructor
  · rintro ⟨now, _, rfl, jti, _, rfl, reply, _, rfl, rfl, rfl, rfl⟩
    exact ⟨now, jti, reply, rfl, rfl, rfl⟩
  · rintro ⟨now, jti, reply, rfl, rfl, rfl⟩
    exact ⟨now, _, rfl, jti, _, rfl, reply, _, rfl, rfl, rfl, rfl⟩

/-- An introspection leaves the manager as it is. -/
theorem introspect_run {token : Value} {out : Except TokenExn Value}
    (h : Py.Run (introspect token) manager t out manager') :
    Introspects manager token t out ∧ manager' = manager := by
  simp only [introspect, call, Py.run_read_bind] at h
  rw [Py.run_bind] at h
  simp only [buildIntrospectAssertion_run, Py.run_ask_bind] at h
  rcases h with ⟨e, ⟨now, jti, reply, rfl, he, rfl⟩, rfl⟩ |
    ⟨assertion, _, _, _, rfl, ⟨now, jti, signed, rfl, hs, rfl⟩, reply, t, rfl, h⟩
  · cases reply with
    | error cls =>
      cases he
      exact ⟨.unsigned now jti cls, rfl⟩
    | ok assertion => cases he
  · cases signed with
    | error cls => cases hs
    | ok _ =>
      cases hs
      cases reply with
      | error cls =>
        simp only [Except.mapError, Py.run_ofExcept_error_bind] at h
        obtain ⟨rfl, rfl, rfl⟩ := h
        exact ⟨.failed now jti assertion _ _, rfl⟩
      | ok resp =>
        simp only [Except.mapError, Py.run_ofExcept_ok_bind] at h
        obtain ⟨statusCode, json⟩ := resp
        by_cases hc : Pep.isSuccess statusCode = true
        · rw [if_pos hc, Py.run_ofExcept] at h
          obtain ⟨rfl, rfl, rfl⟩ := h
          cases json with
          | error cls => exact ⟨.failed now jti assertion _ _, rfl⟩
          | ok claims => exact ⟨.answered now jti assertion statusCode claims hc, rfl⟩
        · rw [if_neg hc, Py.run_raise] at h
          obtain ⟨rfl, rfl, rfl⟩ := h
          exact ⟨.failed now jti assertion _ _, rfl⟩

/-- A call of `get_token` as one of a fetch. -/
def lift (e : TokenEvent) : FetchEvent := ⟨.token e.1, e.2⟩

private theorem ofToken_run {α : Type} {m : TokenMethod α} {out : Except TokenExn α}
    (h : Py.Run (ofToken m) manager t out manager') :
    ∃ u, t = u.map lift ∧ Py.Run m manager u out manager' := by
  obtain ⟨u, hu, hf⟩ := Prog.run_embed _ _ h
  refine ⟨u, ?_, hu⟩
  clear h hu
  induction hf with
  | nil => rfl
  | @cons e d u t hd hf ih =>
    obtain ⟨reply, rfl, he⟩ := hd
    obtain ⟨c, reply'⟩ := e
    cases he
    rw [List.map_cons, ← ih]
    rfl

/-- A fetch is a call of `get_token`, and an introspection of the token that it returns. -/
theorem fetch_run {out : Except TokenExn (Value × Value)}
    (h : Py.Run (fetch context) manager t out manager') :
    ∃ u got v, t = u.map lift ++ v ∧ Py.Run (getToken context) manager u got manager' ∧
      ((∃ e, got = .error e ∧ v = [] ∧ out = .error e) ∨
        ∃ token claims, got = .ok token ∧ manager'.Introspects token v claims ∧
          out = claims.map (token, ·)) := by
  rw [fetch, Py.run_bind] at h
  rcases h with ⟨e, h, rfl⟩ | ⟨token, _, t, m, rfl, hg, h⟩
  · obtain ⟨u, rfl, hg⟩ := ofToken_run h
    exact ⟨u, _, [], (List.append_nil _).symm, hg, .inl ⟨e, rfl, rfl, rfl⟩⟩
  · obtain ⟨u, rfl, hu⟩ := ofToken_run hg
    rw [Py.run_bind] at h
    rcases h with ⟨e, h, rfl⟩ | ⟨claims, v, _, _, rfl, h, hp⟩
    · obtain ⟨hi, rfl⟩ := introspect_run h
      exact ⟨u, _, t, rfl, hu, .inr ⟨token, _, rfl, hi, rfl⟩⟩
    · obtain ⟨hi, rfl⟩ := introspect_run h
      obtain ⟨rfl, rfl, rfl⟩ := Py.run_pure.mp hp
      rw [List.append_nil]
      exact ⟨u, _, v, rfl, hu, .inr ⟨token, _, rfl, hi, rfl⟩⟩

end

/-! ### Histories -/

/-- An agent's fetch of a token: what it was for, its calls, and the token with its claims. -/
structure Fetch where
  context : AgentContext
  trace : List FetchEvent
  outcome : Except TokenExn (Value × Value)

/-- Fetches with one manager, one after the other. -/
inductive Fetches (start : TokenManager) : List Fetch → TokenManager → Prop where
  | nil : Fetches start [] start
  | snoc {fetches : List Fetch} {manager manager' : TokenManager}
      (h : Fetches start fetches manager) (f : Fetch)
      (hr : Py.Run (fetch f.context) manager f.trace f.outcome manager') :
      Fetches start (fetches ++ [f]) manager'

/-- The managers of one agent: they differ in what they hold in the cache. -/
def SameAgent (manager manager' : TokenManager) : Prop :=
  manager.agentId = manager'.agentId ∧ manager.tokenEndpoint = manager'.tokenEndpoint ∧
    manager.privateKeyPem = manager'.privateKeyPem

/-- A fetch is a call of `get_token` and, where that returns a token, an introspection of just
this token. -/
def Covers (start : TokenManager) (f : Fetch) (u : TokenUse) : Prop :=
  f.context = u.context ∧ ∃ v, f.trace = u.trace.map lift ++ v ∧
    ((∃ e, u.outcome = .error e ∧ v = [] ∧ f.outcome = .error e) ∨
      ∃ token claims, u.outcome = .ok token ∧ start.Introspects token v claims ∧
        f.outcome = claims.map (token, ·))

/-- A call that reads a time at which the last token has not had its time returns the token that
the call before has returned. -/
def Repeats (start : TokenManager) (uses : List TokenUse) : Prop :=
  ∀ before u v after token held now, uses = before ++ u :: v :: after → u.outcome = .ok token →
    v.trace.head? = some ⟨.time, now⟩ → held ∈ acquisitions (before ++ [u]) →
      now < held + lifetime start.settings → v.trace = [⟨.time, now⟩] ∧ v.outcome = .ok token

section
variable {start manager manager' : TokenManager} {context : AgentContext}
  {fetches : List Fetch} {uses : List TokenUse}

/-- A call of `get_token` leaves the manager one of the same agent. -/
theorem Gets.sameAgent {t : List TokenEvent} {out : Except TokenExn Value}
    (h : manager.Gets context t out manager') (hs : SameAgent start manager) :
    SameAgent start manager' := by
  cases h with
  | cached | failed | acquired => exact hs

/-- Introspections of one agent do not depend on the cache. -/
theorem Introspects.congr {token : Value} {t : List FetchEvent} {out : Except TokenExn Value}
    (hs : SameAgent start manager) (h : manager.Introspects token t out) :
    start.Introspects token t out := by
  obtain ⟨agentId, settings, endpoint, key, cached, expires⟩ := manager
  obtain ⟨rfl, rfl, rfl⟩ := hs
  cases h with
  | unsigned now jti cls => exact .unsigned now jti cls
  | failed now jti assertion reply e => exact .failed now jti assertion reply e
  | answered now jti assertion statusCode claims hs =>
    exact .answered now jti assertion statusCode claims hs

/-- The calls of `get_token` of fetches are a history of their own, whatever was learned of the
tokens. -/
theorem Fetches.exists_uses (h : Fetches start fetches manager) : ∃ uses, Uses start uses manager ∧
    SameAgent start manager ∧ List.Forall₂ (Covers start) fetches uses := by
  induction h with
  | nil => exact ⟨[], .nil, ⟨rfl, rfl, rfl⟩, .nil⟩
  | @snoc fetches m m' h f hr ih =>
    obtain ⟨uses, hu, hs, hf⟩ := ih
    obtain ⟨t, got, v, ht, hg, hc⟩ := fetch_run hr
    have hs' := (getToken_run hg).sameAgent hs
    refine ⟨_, hu.snoc ⟨f.context, t, got⟩ hg, hs', List.rel_append hf (.cons ?_ .nil)⟩
    refine ⟨rfl, v, ht, ?_⟩
    rcases hc with hc | ⟨token, claims, hgot, hi, ho⟩
    · exact .inl hc
    · exact .inr ⟨token, claims, hgot, hi.congr hs', ho⟩

/-- A call that returns a token leaves it in the cache. -/
theorem Gets.cachedToken {t : List TokenEvent} {token : Value}
    (h : manager.Gets context t (.ok token) manager') : manager'.cachedToken = some token := by
  cases h with
  | cached now token ha => exact ha.1
  | acquired => rfl

/-- A token is returned again until it has had its time. -/
theorem Uses.repeats (h : Uses start uses manager) (h₀ : start.cachedToken = none)
    (hc : (clock uses).Pairwise (· ≤ ·)) (ht : GrantsTokens uses) : Repeats start uses := by
  intro before u v after token held now hs ho hh hheld hnow
  have hs' : uses = (before ++ [u]) ++ v :: after := by rw [hs, List.append_assoc]; rfl
  obtain ⟨m, m', hm, hg⟩ := h.split hs'
  have hp : Paced start (before ++ [u]) m := by
    rw [hs', clock_append, List.pairwise_append] at hc
    exact hm.paced h₀ hc.1 (hs' ▸ ht).left
  have hk : m.cachedToken = some token := by
    generalize hl : before ++ [u] = l at hm
    cases hm with
    | nil => simp at hl
    | snoc hm w hr =>
      obtain ⟨rfl, he⟩ := List.append_inj' hl rfl
      cases he
      exact (ho ▸ getToken_run hr).cachedToken
  obtain ⟨w, hw, made, last, hacq, hexp, hle⟩ := hp.last token hk
  have ha : m.Answers now token := by
    refine ⟨hk, (hs' ▸ ht).left w hw token made last hacq, ?_⟩
    have := hle held hheld
    rw [Fresh, hexp]
    rw [lifetime] at hnow
    omega
  exact hg.of_answers ha hh

/-- Each fetch shows the token that its call of `get_token` returns, and has the claims that are
answered; the calls of `get_token` do as they do without introspection, so a token that was
reported as inactive is returned until it has had its time. -/
theorem introspection_keeps_token (h : Fetches start fetches manager)
    (h₀ : start.cachedToken = none) :
    ∃ uses, Uses start uses manager ∧ List.Forall₂ (Covers start) fetches uses ∧
      ((clock uses).Pairwise (· ≤ ·) → GrantsTokens uses → Repeats start uses) := by
  obtain ⟨uses, hu, -, hf⟩ := h.exists_uses
  exact ⟨uses, hu, hf, hu.repeats h₀⟩

end

/-! ### A token that is no longer active -/

/-- Libraries and an identity provider that gives out one token, and knows it as inactive. -/
def revoking (c : FetchCall) : c.Reply :=
  match c with
  | .token c => granting c
  | .encode .. => .ok "assertion"
  | .post .. => .ok ⟨200, .ok (.obj [("active", .bool false)])⟩

/-- A fetch on these answers, and the manager after it. -/
def fetchOn (manager : TokenManager) (context : AgentContext) : Fetch × TokenManager :=
  let ran := Py.exec (fun _ ↦ revoking) (fetch context) manager
  (⟨context, ran.1, ran.2.1⟩, ran.2.2)

/-- Two fetches for one task. -/
def twoFetches : List Fetch :=
  let first := fetchOn keyedManager (stagingTask "task-001")
  [first.1, (fetchOn first.2 (stagingTask "task-001")).1]

private theorem Fetches.fetchOn {start manager : TokenManager} {fetches : List Fetch}
    (h : Fetches start fetches manager) (context : AgentContext) :
    Fetches start (fetches ++ [(manager.fetchOn context).1]) (manager.fetchOn context).2 :=
  h.snoc _ (Py.run_exec (fun _ ↦ revoking) (fetch context) manager)

/-- The token is returned again although it is known to be inactive. -/
theorem introspection_keeps_token_revoked :
    twoFetches.map Fetch.outcome =
      List.replicate 2 (.ok (.str "token", .obj [("active", .bool false)])) ∧
    ∃ manager uses, Uses keyedManager uses manager ∧
      List.Forall₂ (Covers keyedManager) twoFetches uses ∧
      ((clock uses).Pairwise (· ≤ ·) → GrantsTokens uses → Repeats keyedManager uses) :=
  ⟨rfl, _, introspection_keeps_token
    ((Fetches.nil.fetchOn (stagingTask "task-001")).fetchOn (stagingTask "task-001")) rfl⟩

end TokenManager
end NhiSentinel.Identity
