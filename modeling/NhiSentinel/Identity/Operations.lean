import NhiSentinel.Identity.Administration
import NhiSentinel.Identity.KeyAgreement

/-!
# The operations of the administration

What each method of the administration can call and return, whatever the servers answer: a
lookup comes before the change of a client, and what is returned was answered.
-/

namespace NhiSentinel.Identity
open NhiSentinel.Base

/-- The answer to a lookup has a client with an identifier. -/
def Finds (reply : Except String Answer) (id : Value) : Prop :=
  ∃ answer body entry, reply = .ok answer ∧ Pep.isSuccess answer.statusCode = true ∧
    answer.json = .ok body ∧ body.truthy = true ∧ firstOf body = .ok entry ∧
      subscript "id" entry = .ok id

/-- The answer to a request for a keypair has one of its members. -/
def Reads (member : String) (reply : Except String Answer) (key : Value) : Prop :=
  ∃ answer body secret data, reply = .ok answer ∧ Pep.isSuccess answer.statusCode = true ∧
    answer.json = .ok body ∧ subscript "data" body = .ok secret ∧
      subscript "data" secret = .ok data ∧ subscript member data = .ok key

namespace IdentityProvisioner

variable {rt : Runtime} {provisioner : IdentityProvisioner} {t : List AdminEvent}

private theorem run_attempt_bind {α β : Type} {x : Except String α} {f : α → AdminMethod β}
    {out : Except AdminExn β} (h : Py.Run (attempt x >>= f) () t out ()) :
    (∃ a, x = .ok a ∧ Py.Run (f a) () t out ()) ∨
      ∃ cls, x = .error cls ∧ t = [] ∧ out = .error (.other cls) := by
  cases x with
  | ok a => exact .inl ⟨a, rfl, Py.run_ofExcept_ok_bind.mp h⟩
  | error cls =>
    obtain ⟨rfl, rfl, -⟩ := Py.run_ofExcept_error_bind.mp h
    exact .inr ⟨cls, rfl, rfl, rfl⟩

private theorem run_attempt {α : Type} {x : Except String α} {out : Except AdminExn α}
    (h : Py.Run (attempt x) () t out ()) : t = [] ∧ ∀ a, out = .ok a → x = .ok a := by
  obtain ⟨rfl, rfl, -⟩ := Py.run_ofExcept.mp h
  refine ⟨rfl, fun a ha ↦ ?_⟩
  cases x with
  | ok b =>
    cases ha
    rfl
  | error cls => cases ha

/-- An exception is raised unless a request goes through. -/
theorem run_checkStatus {reply : Except String Nat} {out : Except AdminExn Unit}
    (h : Py.Run (checkStatus reply) () t out ()) : t = [] ∧ (out = .ok () → Succeeds reply) := by
  rcases run_attempt_bind h with ⟨status, rfl, h₁⟩ | ⟨cls, rfl, rfl, rfl⟩
  · split at h₁
    · next hs => exact ⟨(Py.run_pure.mp h₁).1, fun _ ↦ ⟨status, rfl, hs⟩⟩
    · obtain ⟨rfl, rfl, -⟩ := Py.run_raise.mp h₁
      exact ⟨rfl, fun he ↦ by cases he⟩
  · exact ⟨rfl, fun he ↦ by cases he⟩

/-- The body of an answer is that of one that went through. -/
theorem run_readBody {reply : Except String Answer} {out : Except AdminExn Value}
    (h : Py.Run (readBody reply) () t out ()) :
    t = [] ∧ ∀ body, out = .ok body → ∃ answer, reply = .ok answer ∧
      Pep.isSuccess answer.statusCode = true ∧ answer.json = .ok body := by
  rcases Py.run_bind.mp h with ⟨e, h₁, rfl⟩ | ⟨_, t₁, t₂, _, rfl, h₁, h₂⟩
  · exact ⟨(run_checkStatus h₁).1, fun body he ↦ by cases he⟩
  · obtain ⟨rfl, hs⟩ := run_checkStatus h₁
    obtain ⟨status, hr, hs⟩ := hs rfl
    rcases run_attempt_bind h₂ with ⟨answer, rfl, h₃⟩ | ⟨cls, rfl, -⟩
    · obtain ⟨rfl, hj⟩ := run_attempt h₃
      cases hr
      exact ⟨rfl, fun body hb ↦ ⟨answer, rfl, hs, hj body hb⟩⟩
    · cases hr

/-- The constructor asks for a token, and changes nothing but the token. -/
theorem run_connect {adminUser adminPassword : String} {out : Except AdminExn IdentityProvisioner}
    (h : Py.Run (provisioner.connect rt adminUser adminPassword) () t out ()) :
    ∃ reply, t = [⟨.token provisioner.adminTokenUrl adminUser adminPassword, reply⟩] ∧
      ∀ connected, out = .ok connected →
        ∃ token, connected = { provisioner with adminToken := token } := by
  obtain ⟨reply, t', rfl, h₁⟩ := Py.run_ask_bind.mp h
  refine ⟨reply, ?_⟩
  rcases Py.run_bind.mp h₁ with ⟨e, h₂, rfl⟩ | ⟨json, t₁, t₂, _, rfl, h₂, h₃⟩
  · rw [(run_readBody h₂).1]
    exact ⟨rfl, fun _ he ↦ by cases he⟩
  · rw [(run_readBody h₂).1]
    rcases run_attempt_bind h₃ with ⟨token, -, h₄⟩ | ⟨cls, -, rfl, rfl⟩
    · obtain ⟨rfl, rfl, -⟩ := Py.run_pure.mp h₄
      exact ⟨rfl, fun _ he ↦ ⟨_, (Except.ok.inj he).symm⟩⟩
    · exact ⟨rfl, fun _ he ↦ by cases he⟩

/-- A lookup is one request. -/
theorem run_getClientUuid {clientId : String} {out : Except AdminExn Value}
    (h : Py.Run (provisioner.getClientUuid clientId) () t out ()) :
    ∃ reply, t = [⟨.getClients provisioner.clientsUrl provisioner.adminToken clientId, reply⟩] ∧
      ∀ id, out = .ok id → Finds reply id := by
  obtain ⟨reply, t', rfl, h₁⟩ := Py.run_ask_bind.mp h
  refine ⟨reply, ?_⟩
  rcases Py.run_bind.mp h₁ with ⟨e, h₂, rfl⟩ | ⟨body, t₁, t₂, _, rfl, h₂, h₃⟩
  · rw [(run_readBody h₂).1]
    exact ⟨rfl, fun _ he ↦ by cases he⟩
  · obtain ⟨rfl, hb⟩ := run_readBody h₂
    obtain ⟨answer, rfl, hs, hj⟩ := hb body rfl
    split at h₃
    · next ht =>
      rcases run_attempt_bind h₃ with ⟨entry, he, h₄⟩ | ⟨cls, -, rfl, rfl⟩
      · obtain ⟨rfl, hid⟩ := run_attempt h₄
        exact ⟨rfl, fun id hi ↦ ⟨answer, body, entry, rfl, hs, hj, ht, he, hid id hi⟩⟩
      · exact ⟨rfl, fun _ he ↦ by cases he⟩
    · obtain ⟨rfl, rfl, -⟩ := Py.run_raise.mp h₃
      exact ⟨rfl, fun _ he ↦ by cases he⟩

/-- A suspension is a lookup, and a change of the client that it finds. -/
theorem run_suspendClient {clientId : String} {out : Except AdminExn Unit}
    (h : Py.Run (provisioner.suspendClient rt clientId) () t out ()) :
    ∃ lookup, (t = [⟨.getClients provisioner.clientsUrl provisioner.adminToken clientId, lookup⟩] ∧
        out ≠ .ok ()) ∨
      ∃ id reply, Finds lookup id ∧
        t = [⟨.getClients provisioner.clientsUrl provisioner.adminToken clientId, lookup⟩,
          ⟨.putClient (provisioner.clientUrl (Python.str rt id)) provisioner.adminToken disable,
            reply⟩] ∧ (out = .ok () → Succeeds reply) := by
  rcases Py.run_bind.mp h with ⟨e, h₁, rfl⟩ | ⟨id, t₁, t₂, _, rfl, h₁, h₂⟩
  · obtain ⟨lookup, rfl, -⟩ := run_getClientUuid h₁
    exact ⟨lookup, .inl ⟨rfl, fun he ↦ by cases he⟩⟩
  · obtain ⟨lookup, rfl, hf⟩ := run_getClientUuid h₁
    obtain ⟨reply, t', rfl, h₃⟩ := Py.run_ask_bind.mp h₂
    obtain ⟨rfl, hs⟩ := run_checkStatus h₃
    exact ⟨lookup, .inr ⟨id, reply, hf id rfl, rfl, hs⟩⟩

/-- A deletion is a lookup, and the removal of the client that it finds. -/
theorem run_deleteClient {clientId : String} {out : Except AdminExn Unit}
    (h : Py.Run (provisioner.deleteClient rt clientId) () t out ()) :
    ∃ lookup, (t = [⟨.getClients provisioner.clientsUrl provisioner.adminToken clientId, lookup⟩] ∧
        out ≠ .ok ()) ∨
      ∃ id reply, Finds lookup id ∧
        t = [⟨.getClients provisioner.clientsUrl provisioner.adminToken clientId, lookup⟩,
          ⟨.deleteClient (provisioner.clientUrl (Python.str rt id)) provisioner.adminToken,
            reply⟩] ∧ (out = .ok () → Succeeds reply) := by
  rcases Py.run_bind.mp h with ⟨e, h₁, rfl⟩ | ⟨id, t₁, t₂, _, rfl, h₁, h₂⟩
  · obtain ⟨lookup, rfl, -⟩ := run_getClientUuid h₁
    exact ⟨lookup, .inl ⟨rfl, fun he ↦ by cases he⟩⟩
  · obtain ⟨lookup, rfl, hf⟩ := run_getClientUuid h₁
    obtain ⟨reply, t', rfl, h₃⟩ := Py.run_ask_bind.mp h₂
    obtain ⟨rfl, hs⟩ := run_checkStatus h₃
    exact ⟨lookup, .inr ⟨id, reply, hf id rfl, rfl, hs⟩⟩

/-- A key is read by one request. -/
theorem run_readAgentKey {member agentId : String} {out : Except AdminExn Value}
    (h : Py.Run (provisioner.readAgentKey member agentId) () t out ()) :
    ∃ reply, t = [⟨.getSecret (provisioner.keypairUrl agentId) provisioner.vaultToken, reply⟩] ∧
      ∀ key, out = .ok key → Reads member reply key := by
  obtain ⟨reply, t', rfl, h₁⟩ := Py.run_ask_bind.mp h
  refine ⟨reply, ?_⟩
  rcases Py.run_bind.mp h₁ with ⟨e, h₂, rfl⟩ | ⟨body, t₁, t₂, _, rfl, h₂, h₃⟩
  · rw [(run_readBody h₂).1]
    exact ⟨rfl, fun _ he ↦ by cases he⟩
  · obtain ⟨rfl, hb⟩ := run_readBody h₂
    obtain ⟨answer, rfl, hs, hj⟩ := hb body rfl
    rcases run_attempt_bind h₃ with ⟨secret, he, h₄⟩ | ⟨cls, -, rfl, rfl⟩
    · rcases run_attempt_bind h₄ with ⟨data, hd, h₅⟩ | ⟨cls, -, rfl, rfl⟩
      · obtain ⟨rfl, hk⟩ := run_attempt h₅
        exact ⟨rfl, fun key hi ↦ ⟨answer, body, secret, data, rfl, hs, hj, he, hd, hk key hi⟩⟩
      · exact ⟨rfl, fun _ he ↦ by cases he⟩
    · exact ⟨rfl, fun _ he ↦ by cases he⟩

/-- Keys are erased by one request. -/
theorem run_deleteAgentKeypair {agentId : String} {out : Except AdminExn Unit}
    (h : Py.Run (provisioner.deleteAgentKeypair agentId) () t out ()) :
    ∃ reply, t = [⟨.deleteSecret (provisioner.metadataUrl agentId) provisioner.vaultToken,
      reply⟩] ∧ (out = .ok () → Succeeds reply) := by
  obtain ⟨reply, t', rfl, h₁⟩ := Py.run_ask_bind.mp h
  obtain ⟨rfl, hs⟩ := run_checkStatus h₁
  exact ⟨reply, rfl, hs⟩

/-- The health of Vault is asked by one request. -/
theorem run_isHealthy {out : Except AdminExn Bool}
    (h : Py.Run provisioner.isHealthy () t out ()) :
    ∃ reply, t = [⟨.getHealth s!"{provisioner.vaultAddr}/v1/sys/health" provisioner.vaultToken 3,
      reply⟩] := by
  obtain ⟨reply, t', rfl, h₁⟩ := Py.run_ask_bind.mp h
  refine ⟨reply, ?_⟩
  rcases reply with (cls | cls) | status
  · rw [(Py.run_pure.mp h₁).1]
  · rw [(Py.run_raise.mp h₁).1]
  · rw [(Py.run_pure.mp h₁).1]

/-- What `provision` has done when it returns: a keypair of the agent is stored, and its public
key was registered, or there was a client already. -/
theorem provision_returns {path : String} {u : List ProvisionEvent} {record : ActiveIdentityRecord}
    (h : Py.Run (provisioner.provision path) () u (.ok record) ()) :
    ∃ manifest pair stored reply now, u = [⟨.loadManifest path, .ok manifest⟩,
        ⟨.generateRsaKeypair, pair⟩,
        ⟨.put (provisioner.keypairUrl manifest.metadata.name) provisioner.vaultToken
          (keypairBody pair), stored⟩,
        ⟨.post provisioner.clientsUrl provisioner.adminToken
          (clientPayload manifest.metadata.name pair.publicPem), reply⟩, ⟨.clock, now⟩] ∧
      Succeeds stored ∧ (reply = .ok 409 ∨ Succeeds reply) ∧
      record.identityId = manifest.metadata.name ∧ record.state = .active ∧
      record.vaultPath = s!"agents/{manifest.metadata.name}/keypair" := by
  obtain ⟨loaded, t₁, rfl, h₁⟩ := Py.run_ask_bind.mp h
  rcases Py.run_ofExcept_bind.mp h₁ with ⟨manifest, rfl, h₂⟩ | ⟨cls, -, -, he, -⟩
  swap
  · cases he
  obtain ⟨pair, t₂, rfl, h₃⟩ := Py.run_ask_bind.mp h₂
  rcases Py.run_bind.mp h₃ with ⟨cls, -, he⟩ | ⟨_, u₁, u₂, _, rfl, h₄, h₅⟩
  · cases he
  obtain ⟨stored, rfl, hs⟩ := run_writeAgentKeypair h₄
  rcases Py.run_bind.mp h₅ with ⟨cls, -, he⟩ | ⟨_, v₁, v₂, _, rfl, h₆, h₇⟩
  · cases he
  obtain ⟨now, t', rfl, h₈⟩ := Py.run_ask_bind.mp h₇
  obtain ⟨rfl, he, -⟩ := Py.run_pure.mp h₈
  cases he
  obtain ⟨reply, t', rfl, h₉⟩ := Py.run_ask_bind.mp h₆
  rcases Py.run_ofExcept_bind.mp h₉ with ⟨status, rfl, h₁₀⟩ | ⟨cls, -, -, he, -⟩
  swap
  · cases he
  split at h₁₀
  · next hc =>
    obtain ⟨rfl, -, -⟩ := Py.run_pure.mp h₁₀
    exact ⟨manifest, pair, stored, _, now, rfl, hs.mpr rfl, .inl (congrArg _ hc), rfl, rfl, rfl⟩
  · unfold raiseForStatus at h₁₀
    split at h₁₀
    · next hc =>
      obtain ⟨rfl, -, -⟩ := Py.run_pure.mp h₁₀
      exact ⟨manifest, pair, stored, _, now, rfl, hs.mpr rfl, .inr ⟨status, rfl, hc⟩, rfl, rfl, rfl⟩
    · cases (Py.run_raise.mp h₁₀).2.1

end IdentityProvisioner

/-- The calls of an operation: what it looks up, what it then asks for, and what it reads. -/
inductive Course (rt : Runtime) (admin : Administrator) :
    Operation → List AdminEvent → Except AdminExn Returned → Prop where
  | unconnected (operation : Operation) (reply : Except String Answer) (e : AdminExn) :
      Course rt admin operation [⟨.token admin.provisioner.adminTokenUrl admin.adminUser
        admin.adminPassword, reply⟩] (.error e)
  | provisioned {path token : String} (reply : Except String Answer) {u : List ProvisionEvent}
      {ended : Except String ActiveIdentityRecord} {out : Except AdminExn Returned}
      (h : Py.Run ({ admin.provisioner with adminToken := token }.provision path) () u ended ())
      (ho : ∀ r, out = .ok r → ∃ record, r = .record record ∧ ended = .ok record) :
      Course rt admin (.provision path) (⟨.token admin.provisioner.adminTokenUrl admin.adminUser
          admin.adminPassword, reply⟩ :: u.map fun e ↦ ⟨.provisioning e.1, e.2⟩) out
  | unknown {operation : Operation} (clientId : AgentName) (reply lookup : Except String Answer)
      (token : String) {out : Except AdminExn Returned} (hn : ¬ ∃ r, out = .ok r) :
      Course rt admin operation [⟨.token admin.provisioner.adminTokenUrl admin.adminUser
          admin.adminPassword, reply⟩,
        ⟨.getClients admin.provisioner.clientsUrl token clientId, lookup⟩] out
  | suspended (clientId : AgentName) (reply : Except String Answer) (token : String)
      {lookup : Except String Answer} {id : Value} (hf : Finds lookup id)
      {reply' : Except String Nat} {out : Except AdminExn Returned}
      (hs : (∃ r, out = .ok r) → Succeeds reply') :
      Course rt admin (.suspendClient clientId) [⟨.token admin.provisioner.adminTokenUrl
          admin.adminUser admin.adminPassword, reply⟩,
        ⟨.getClients admin.provisioner.clientsUrl token clientId, lookup⟩,
        ⟨.putClient (admin.provisioner.clientUrl (Python.str rt id)) token
          IdentityProvisioner.disable, reply'⟩] out
  | deleted (clientId : AgentName) (reply : Except String Answer) (token : String)
      {lookup : Except String Answer} {id : Value} (hf : Finds lookup id)
      {reply' : Except String Nat} {out : Except AdminExn Returned}
      (hs : (∃ r, out = .ok r) → Succeeds reply') :
      Course rt admin (.deleteClient clientId) [⟨.token admin.provisioner.adminTokenUrl
          admin.adminUser admin.adminPassword, reply⟩,
        ⟨.getClients admin.provisioner.clientsUrl token clientId, lookup⟩,
        ⟨.deleteClient (admin.provisioner.clientUrl (Python.str rt id)) token, reply'⟩] out
  | read {operation : Operation} {member : String} {agentId : AgentName}
      (ho : operation = .readAgentPrivateKey agentId ∧ member = "private_key" ∨
        operation = .readAgentPublicKey agentId ∧ member = "public_key")
      {reply : Except String Answer} {out : Except AdminExn Returned}
      (hr : ∀ r, out = .ok r → ∃ key, r = .key key ∧ Reads member reply key) :
      Course rt admin operation [⟨.getSecret (admin.provisioner.keypairUrl agentId)
        admin.provisioner.vaultToken, reply⟩] out
  | erased (agentId : AgentName) {reply : Except String Nat} {out : Except AdminExn Returned}
      (hs : (∃ r, out = .ok r) → Succeeds reply) :
      Course rt admin (.deleteAgentKeypair agentId)
        [⟨.deleteSecret (admin.provisioner.metadataUrl agentId) admin.provisioner.vaultToken,
          reply⟩] out
  | asked (url : String) (timeout : Nat) (reply : Except HttpFailure Nat)
      (out : Except AdminExn Returned) :
      Course rt admin .isHealthy [⟨.getHealth url admin.provisioner.vaultToken timeout, reply⟩] out

section
variable {rt : Runtime} {admin : Administrator} {name : AgentName} {t : List AdminEvent}
  {r : Returned}

/-- A suspension that returns has changed the client that it found. -/
theorem Course.of_suspendClient (h : Course rt admin (.suspendClient name) t (.ok r)) :
    ∃ connect lookup url token reply, t = [connect, lookup,
      ⟨.putClient url token IdentityProvisioner.disable, reply⟩] ∧ Succeeds reply := by
  generalize ho : Operation.suspendClient name = operation at h
  cases h with
  | unknown _ _ _ _ hn => exact absurd ⟨r, rfl⟩ hn
  | suspended clientId reply token hf hs => exact ⟨_, _, _, _, _, rfl, hs ⟨r, rfl⟩⟩
  | read ho' =>
    subst ho
    rcases ho' with ⟨he, -⟩ | ⟨he, -⟩
    · cases he
    · cases he
  | provisioned | deleted | erased | asked => cases ho

/-- A deletion that returns has removed the client that it found. -/
theorem Course.of_deleteClient (h : Course rt admin (.deleteClient name) t (.ok r)) :
    ∃ connect lookup url token reply, t = [connect, lookup, ⟨.deleteClient url token, reply⟩] ∧
      Succeeds reply := by
  generalize ho : Operation.deleteClient name = operation at h
  cases h with
  | unknown _ _ _ _ hn => exact absurd ⟨r, rfl⟩ hn
  | deleted clientId reply token hf hs => exact ⟨_, _, _, _, _, rfl, hs ⟨r, rfl⟩⟩
  | read ho' =>
    subst ho
    rcases ho' with ⟨he, -⟩ | ⟨he, -⟩
    · cases he
    · cases he
  | provisioned | suspended | erased | asked => cases ho

/-- A deletion of keys that returns has erased them. -/
theorem Course.of_deleteAgentKeypair (h : Course rt admin (.deleteAgentKeypair name) t (.ok r)) :
    ∃ reply, t = [⟨.deleteSecret (admin.provisioner.metadataUrl name)
      admin.provisioner.vaultToken, reply⟩] ∧ Succeeds reply := by
  generalize ho : Operation.deleteAgentKeypair name = operation at h
  cases h with
  | unknown _ _ _ _ hn => exact absurd ⟨r, rfl⟩ hn
  | erased agentId hs =>
    cases ho
    exact ⟨_, rfl, hs ⟨r, rfl⟩⟩
  | read ho' =>
    subst ho
    rcases ho' with ⟨he, -⟩ | ⟨he, -⟩
    · cases he
    · cases he
  | provisioned | suspended | deleted | asked => cases ho

/-- A read that returns was answered with the key. -/
theorem Course.of_readAgentPrivateKey
    (h : Course rt admin (.readAgentPrivateKey name) t (.ok r)) :
    ∃ reply key, t = [⟨.getSecret (admin.provisioner.keypairUrl name)
      admin.provisioner.vaultToken, reply⟩] ∧ r = .key key ∧ Reads "private_key" reply key := by
  generalize ho : Operation.readAgentPrivateKey name = operation at h
  cases h with
  | unknown _ _ _ _ hn => exact absurd ⟨r, rfl⟩ hn
  | read ho' hr =>
    subst ho
    rcases ho' with ⟨he, rfl⟩ | ⟨he, -⟩
    · cases he
      obtain ⟨key, rfl, hk⟩ := hr r rfl
      exact ⟨_, key, rfl, rfl, hk⟩
    · cases he
  | provisioned | suspended | deleted | erased | asked => cases ho

/-- A provisioning that returns has gone through to its end. -/
theorem Course.of_provision {path : String} {record : ActiveIdentityRecord}
    (h : Course rt admin (.provision path) t (.ok (.record record))) :
    ∃ connect token u, t = connect :: u.map (fun e ↦ ⟨.provisioning e.1, e.2⟩) ∧
      Py.Run ({ admin.provisioner with adminToken := token }.provision path) () u
        (.ok record) () := by
  generalize ho : Operation.provision path = operation at h
  cases h with
  | unknown _ _ _ _ hn => exact absurd ⟨_, rfl⟩ hn
  | provisioned reply hr he =>
    cases ho
    obtain ⟨record', he', rfl⟩ := he _ rfl
    cases he'
    exact ⟨_, _, _, rfl, hr⟩
  | read ho' =>
    subst ho
    rcases ho' with ⟨he, -⟩ | ⟨he, -⟩
    · cases he
    · cases he
  | suspended | deleted | erased | asked => cases ho

end

namespace Administrator

variable {rt : Runtime} {admin : Administrator} {t : List AdminEvent}
  {out : Except AdminExn Returned}

/-- `provision` among the methods of the administration has its own calls. -/
theorem run_provision {provisioner : IdentityProvisioner} {path : String}
    {out : Except AdminExn ActiveIdentityRecord}
    (h : Py.Run (provision provisioner path) () t out ()) :
    ∃ u ended, Py.Run (provisioner.provision path) () u ended () ∧
      t = u.map (fun e ↦ ⟨.provisioning e.1, e.2⟩) ∧
      ∀ record, out = .ok record → ended = .ok record := by
  obtain ⟨t₁, ⟨ended, _⟩, t₂, rfl, h₁, h₂⟩ := Prog.run_bind.mp h
  obtain ⟨rfl, he⟩ := Prog.run_done.mp h₂
  cases he
  obtain ⟨u, hu, hf⟩ := Prog.run_embed _ _ h₁
  refine ⟨u, ended, hu, ?_, fun record he ↦ ?_⟩
  swap
  · cases ended with
    | ok r =>
      cases he
      rfl
    | error cls => cases he
  rw [List.append_nil]
  clear hu h₁ h
  induction hf with
  | nil => rfl
  | @cons e d _ _ hd _ ih =>
    obtain ⟨r, rfl, hr⟩ := hd
    rw [List.map_cons, ← ih, ← hr]

/-- A client is connected, and goes on with its token. -/
theorem run_connect_bind {f : IdentityProvisioner → AdminMethod Returned}
    (h : Py.Run (admin.provisioner.connect rt admin.adminUser admin.adminPassword >>= f) () t out
      ()) :
    ∃ reply t', t = ⟨.token admin.provisioner.adminTokenUrl admin.adminUser admin.adminPassword,
        reply⟩ :: t' ∧
      ((t' = [] ∧ ∃ e, out = .error e) ∨
        ∃ token, Py.Run (f { admin.provisioner with adminToken := token }) () t' out ()) := by
  rcases Py.run_bind.mp h with ⟨e, h₁, rfl⟩ | ⟨connected, t₁, t₂, _, rfl, h₁, h₂⟩
  · obtain ⟨reply, rfl, -⟩ := IdentityProvisioner.run_connect h₁
    exact ⟨reply, [], rfl, .inl ⟨rfl, e, rfl⟩⟩
  · obtain ⟨reply, rfl, hc⟩ := IdentityProvisioner.run_connect h₁
    obtain ⟨token, rfl⟩ := hc connected rfl
    exact ⟨reply, t₂, rfl, .inr ⟨token, h₂⟩⟩

/-- What is returned after a step that has no value of its own. -/
theorem run_then {m : AdminMethod Unit} {r : Returned}
    (h : Py.Run (m >>= fun _ ↦ pure r) () t out ()) :
    ∃ done, Py.Run m () t done () ∧ ((∃ r, out = .ok r) → done = .ok ()) := by
  rcases Py.run_bind.mp h with ⟨e, h₁, rfl⟩ | ⟨_, t₁, t₂, _, rfl, h₁, h₂⟩
  · refine ⟨_, h₁, ?_⟩
    rintro ⟨_, he⟩
    cases he
  · obtain ⟨rfl, -, -⟩ := Py.run_pure.mp h₂
    rw [List.append_nil]
    exact ⟨_, h₁, fun _ ↦ rfl⟩

/-- A key that is read is returned. -/
theorem run_key {m : AdminMethod Value} (h : Py.Run (m >>= fun key ↦ pure (.key key)) () t out ()) :
    ∃ done, Py.Run m () t done () ∧ ∀ r, out = .ok r → ∃ key, r = .key key ∧ done = .ok key := by
  rcases Py.run_bind.mp h with ⟨e, h₁, rfl⟩ | ⟨key, t₁, t₂, _, rfl, h₁, h₂⟩
  · exact ⟨_, h₁, fun _ he ↦ by cases he⟩
  · obtain ⟨rfl, rfl, -⟩ := Py.run_pure.mp h₂
    rw [List.append_nil]
    exact ⟨_, h₁, fun _ he ↦ ⟨key, (Except.ok.inj he).symm, rfl⟩⟩

/-- Every run of an operation takes its course. -/
theorem program_course {operation : Operation} (h : Prog.Run (admin.program rt operation) t out) :
    Course rt admin operation t out := by
  obtain ⟨t₁, ⟨_, _⟩, t₂, rfl, h, h₂⟩ := Prog.run_bind.mp h
  obtain ⟨rfl, rfl⟩ := Prog.run_done.mp h₂
  rw [List.append_nil]
  change Py.Run (admin.method rt operation) () t₁ _ () at h
  cases operation with
  | provision path =>
    obtain ⟨reply, t', rfl, ⟨rfl, e, rfl⟩ | ⟨token, h⟩⟩ := run_connect_bind h
    · exact .unconnected _ reply e
    · rcases Py.run_bind.mp h with ⟨e, h₁, rfl⟩ | ⟨record, u₁, u₂, _, rfl, h₁, h₂⟩
      · obtain ⟨u, ended, hu, rfl, -⟩ := run_provision h₁
        exact .provisioned reply hu fun _ he ↦ by cases he
      · obtain ⟨rfl, rfl, -⟩ := Py.run_pure.mp h₂
        obtain ⟨u, ended, hu, rfl, ho⟩ := run_provision h₁
        rw [List.append_nil]
        exact .provisioned reply hu fun _ he ↦ ⟨record, (Except.ok.inj he).symm, ho record rfl⟩
  | suspendClient clientId =>
    obtain ⟨reply, t', rfl, ⟨rfl, e, rfl⟩ | ⟨token, h⟩⟩ := run_connect_bind h
    · exact .unconnected _ reply e
    · obtain ⟨done, hd, ho⟩ := run_then h
      obtain ⟨lookup, ⟨rfl, hn⟩ | ⟨id, reply', hf, rfl, hs⟩⟩ :=
        IdentityProvisioner.run_suspendClient hd
      · exact .unknown clientId reply lookup token fun hr ↦ hn (ho hr)
      · exact .suspended clientId reply token hf fun hr ↦ hs (ho hr)
  | deleteClient clientId =>
    obtain ⟨reply, t', rfl, ⟨rfl, e, rfl⟩ | ⟨token, h⟩⟩ := run_connect_bind h
    · exact .unconnected _ reply e
    · obtain ⟨done, hd, ho⟩ := run_then h
      obtain ⟨lookup, ⟨rfl, hn⟩ | ⟨id, reply', hf, rfl, hs⟩⟩ :=
        IdentityProvisioner.run_deleteClient hd
      · exact .unknown clientId reply lookup token fun hr ↦ hn (ho hr)
      · exact .deleted clientId reply token hf fun hr ↦ hs (ho hr)
  | readAgentPrivateKey agentId =>
    obtain ⟨done, hd, ho⟩ := run_key h
    obtain ⟨reply, rfl, hr⟩ := IdentityProvisioner.run_readAgentKey hd
    refine .read (.inl ⟨rfl, rfl⟩) fun r hr' ↦ ?_
    obtain ⟨key, rfl, rfl⟩ := ho r hr'
    exact ⟨key, rfl, hr key rfl⟩
  | readAgentPublicKey agentId =>
    obtain ⟨done, hd, ho⟩ := run_key h
    obtain ⟨reply, rfl, hr⟩ := IdentityProvisioner.run_readAgentKey hd
    refine .read (.inr ⟨rfl, rfl⟩) fun r hr' ↦ ?_
    obtain ⟨key, rfl, rfl⟩ := ho r hr'
    exact ⟨key, rfl, hr key rfl⟩
  | deleteAgentKeypair agentId =>
    obtain ⟨done, hd, ho⟩ := run_then h
    obtain ⟨reply, rfl, hs⟩ := IdentityProvisioner.run_deleteAgentKeypair hd
    exact .erased agentId fun hr ↦ hs (ho hr)
  | isHealthy =>
    rcases Py.run_bind.mp h with ⟨e, h₁, rfl⟩ | ⟨healthy, u₁, u₂, _, rfl, h₁, h₂⟩
    · obtain ⟨reply, rfl⟩ := IdentityProvisioner.run_isHealthy h₁
      exact .asked _ _ reply _
    · obtain ⟨rfl, rfl, -⟩ := Py.run_pure.mp h₂
      obtain ⟨reply, rfl⟩ := IdentityProvisioner.run_isHealthy h₁
      exact .asked _ _ reply _

end Administrator

end NhiSentinel.Identity
