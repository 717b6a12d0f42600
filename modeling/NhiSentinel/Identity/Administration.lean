import NhiSentinel.Base.Python
import NhiSentinel.Identity.Provisioner

/-!
# The administration of identities

`KeycloakAdmin` of `identity/provisioner.py` and `VaultClient` of `identity/vault_client.py`
with all their methods, as programs over the two servers. Logging is left out.
-/

namespace NhiSentinel.Identity
open NhiSentinel.Base

/-- An answer with a body: the status code, and what `resp.json()` returns or raises. -/
structure Answer where
  statusCode : Nat
  json : Except String Value

/-- Why a request has no answer. -/
inductive HttpFailure where
  /-- `httpx.RequestError`. -/
  | requestError (cls : String)
  | other (cls : String)

/-- The calls that leave the administration. -/
inductive AdminCall where
  /-- A call of `provision`. -/
  | provisioning (c : ProvisionCall)
  /-- `httpx.post` for the token of the administrator. -/
  | token (url username password : String)
  /-- `httpx.get` of the clients with a `clientId`. -/
  | getClients (url adminToken clientId : String)
  /-- `httpx.put` with the token of the administrator. -/
  | putClient (url adminToken : String) (json : Value)
  /-- `httpx.delete` with the token of the administrator. -/
  | deleteClient (url adminToken : String)
  /-- `httpx.get` with the token of Vault. -/
  | getSecret (url vaultToken : String)
  /-- `httpx.delete` with the token of Vault. -/
  | deleteSecret (url vaultToken : String)
  /-- `httpx.get` with the token of Vault and a time limit. -/
  | getHealth (url vaultToken : String) (timeout : Nat)

/-- What a call is answered. -/
@[reducible] def AdminCall.Reply : AdminCall → Type
  | provisioning c => c.Reply
  | token .. => Except String Answer
  | getClients .. => Except String Answer
  | putClient .. => Except String Nat
  | deleteClient .. => Except String Nat
  | getSecret .. => Except String Answer
  | deleteSecret .. => Except String Nat
  | getHealth .. => Except HttpFailure Nat

/-- A call together with its reply. -/
abbrev AdminEvent := Sigma AdminCall.Reply

/-- The exceptions of the administration; those of its libraries by class name. -/
inductive AdminExn where
  | valueError (message : String)
  | other (cls : String)

/-- A method of the administration. -/
abbrev AdminMethod := Py Unit AdminExn AdminCall AdminCall.Reply

/-- `v[key]` of parsed JSON. -/
def subscript (key : String) : Value → Except String Value
  | .obj kvs => (kvs.lookup key).elim (.error "KeyError") .ok
  | _ => .error "TypeError"

/-- `v[0]` of parsed JSON that is not empty. -/
def firstOf : Value → Except String Value
  | .arr (x :: _) => .ok x
  | .arr [] => .error "IndexError"
  | .obj _ => .error "KeyError"
  | .str s => .ok (.str (String.ofList (s.toList.take 1)))
  | _ => .error "TypeError"

namespace IdentityProvisioner

/-- Call the environment. -/
def request (c : AdminCall) : AdminMethod c.Reply := Py.ask c

/-- What a library returns or raises. -/
def attempt {α : Type} (x : Except String α) : AdminMethod α := Py.ofExcept (x.mapError .other)

/-- `raise_for_status` of a request that is answered. -/
def checkStatus (reply : Except String Nat) : AdminMethod Unit := do
  let status ← attempt reply
  if Pep.isSuccess status then pure () else Py.raise (.other "HTTPStatusError")

/-- `raise_for_status` and then `resp.json()`. -/
def readBody (reply : Except String Answer) : AdminMethod Value := do
  checkStatus (reply.map Answer.statusCode)
  let answer ← attempt reply
  attempt answer.json

variable (rt : Runtime) (provisioner : IdentityProvisioner)

/-! ### Keycloak -/

/-- Where Keycloak gives out the token of the administrator, `provisioner.py:42`. -/
def adminTokenUrl : String :=
  s!"{provisioner.settings.keycloakUrl}/realms/master/protocol/openid-connect/token"

/-- `_get_admin_token`, `provisioner.py:40`: the constructor, which has no token yet. -/
def connect (adminUser adminPassword : String) : AdminMethod IdentityProvisioner := do
  let reply : Except String Answer ←
    request (.token provisioner.adminTokenUrl adminUser adminPassword)
  let json ← readBody reply
  let token ← attempt (subscript "access_token" json)
  pure { provisioner with adminToken := Python.str rt token }

/-- Where Keycloak has one client, `provisioner.py:93`. -/
def clientUrl (id : String) : String := provisioner.clientsUrl ++ "/" ++ id

/-- `_get_client_uuid`, `provisioner.py:106`. -/
def getClientUuid (clientId : String) : AdminMethod Value := do
  let reply : Except String Answer ←
    request (.getClients provisioner.clientsUrl provisioner.adminToken clientId)
  let clients ← readBody reply
  if clients.truthy then do
    let client ← attempt (firstOf clients)
    attempt (subscript "id" client)
  else Py.raise (.valueError s!"Client '{clientId}' not found in Keycloak")

/-- The body that takes a client out of service, `provisioner.py:95`. -/
def disable : Value := .obj [("enabled", .bool false)]

/-- `suspend_client`, `provisioner.py:90`. -/
def suspendClient (clientId : String) : AdminMethod Unit := do
  let id ← provisioner.getClientUuid clientId
  let reply : Except String Nat ←
    request (.putClient (provisioner.clientUrl (Python.str rt id)) provisioner.adminToken disable)
  checkStatus reply

/-- `delete_client`, `provisioner.py:100`. -/
def deleteClient (clientId : String) : AdminMethod Unit := do
  let id ← provisioner.getClientUuid clientId
  let reply : Except String Nat ←
    request (.deleteClient (provisioner.clientUrl (Python.str rt id)) provisioner.adminToken)
  checkStatus reply

/-! ### Vault -/

/-- `read_agent_private_key` and `read_agent_public_key`, `vault_client.py:38,44`: one member of
the keypair. -/
def readAgentKey (member agentId : String) : AdminMethod Value := do
  let reply : Except String Answer ←
    request (.getSecret (provisioner.keypairUrl agentId) provisioner.vaultToken)
  let json ← readBody reply
  let secret ← attempt (subscript "data" json)
  let data ← attempt (subscript "data" secret)
  attempt (subscript member data)

/-- `read_agent_private_key`, `vault_client.py:38`. -/
def readAgentPrivateKey : String → AdminMethod Value := provisioner.readAgentKey "private_key"

/-- `read_agent_public_key`, `vault_client.py:44`. -/
def readAgentPublicKey : String → AdminMethod Value := provisioner.readAgentKey "public_key"

/-- Where Vault keeps what belongs to all versions of a keypair, `vault_client.py:51`. -/
def metadataUrl (agentId : String) : String :=
  s!"{provisioner.vaultAddr}/v1/{provisioner.vaultSecretsMount}/metadata/agents/" ++ agentId ++
    "/keypair"

/-- `delete_agent_keypair`, `vault_client.py:50`. -/
def deleteAgentKeypair (agentId : String) : AdminMethod Unit := do
  let reply : Except String Nat ←
    request (.deleteSecret (provisioner.metadataUrl agentId) provisioner.vaultToken)
  checkStatus reply

/-- `is_healthy`, `vault_client.py:60`. -/
def isHealthy : AdminMethod Bool := do
  let reply : Except HttpFailure Nat ←
    request (.getHealth s!"{provisioner.vaultAddr}/v1/sys/health" provisioner.vaultToken 3)
  match reply with
  | .ok status => pure (status ∈ [200, 429, 472, 473])
  | .error (.requestError _) => pure false
  | .error (.other cls) => Py.raise (.other cls)

/-- The path of a client ends in its identifier. -/
theorem clientUrl_injective : Function.Injective provisioner.clientUrl := by
  intro a b h
  have ht := congrArg String.toList h
  simp only [clientUrl, String.toList_append] at ht
  exact String.toList_injective (List.append_cancel_left ht)

/-- The first part of a path is the same for all agents. -/
theorem metadataUrl_injective : Function.Injective provisioner.metadataUrl := by
  intro a b h
  have ht := congrArg String.toList h
  simp only [metadataUrl, String.toList_append] at ht
  exact String.toList_injective (List.append_cancel_left (List.append_cancel_right ht))

end IdentityProvisioner

/-! ### Operations -/

/-- The name of an agent as a manifest has it. -/
abbrev AgentName := { name : String // matchesName name = true }

/-- What an administrator can ask for. The methods take any text; an agent's name is one that
stands for itself in a path. -/
inductive Operation where
  | provision (manifestPath : String)
  | suspendClient (clientId : AgentName)
  | deleteClient (clientId : AgentName)
  | readAgentPrivateKey (agentId : AgentName)
  | readAgentPublicKey (agentId : AgentName)
  | deleteAgentKeypair (agentId : AgentName)
  | isHealthy

/-- What an operation returns. -/
inductive Returned where
  | record (record : ActiveIdentityRecord)
  | unit
  | key (key : Value)
  | healthy (b : Bool)

/-- Who administrates: a process with its settings. -/
structure Administrator where
  provisioner : IdentityProvisioner
  adminUser : String := "admin"
  adminPassword : String := "admin"

namespace Administrator

variable (rt : Runtime) (admin : Administrator)

/-- `provision` among the methods of the administration. -/
def provision (provisioner : IdentityProvisioner) (manifestPath : String) :
    AdminMethod ActiveIdentityRecord := fun s ↦
  ((provisioner.provision manifestPath ()).embed AdminCall.provisioning fun _ reply ↦ reply).bind
    fun ended ↦ .done (ended.1.mapError .other, s)

/-- The constructor of the clients that an operation needs, and the operation. -/
def method : Operation → AdminMethod Returned
  | .provision manifestPath => do
    let provisioner ← admin.provisioner.connect rt admin.adminUser admin.adminPassword
    let record ← provision provisioner manifestPath
    pure (.record record)
  | .suspendClient clientId => do
    let provisioner ← admin.provisioner.connect rt admin.adminUser admin.adminPassword
    provisioner.suspendClient rt clientId
    pure .unit
  | .deleteClient clientId => do
    let provisioner ← admin.provisioner.connect rt admin.adminUser admin.adminPassword
    provisioner.deleteClient rt clientId
    pure .unit
  | .readAgentPrivateKey agentId => do
    let key ← admin.provisioner.readAgentPrivateKey agentId
    pure (.key key)
  | .readAgentPublicKey agentId => do
    let key ← admin.provisioner.readAgentPublicKey agentId
    pure (.key key)
  | .deleteAgentKeypair agentId => do
    admin.provisioner.deleteAgentKeypair agentId
    pure .unit
  | .isHealthy => do
    let healthy ← admin.provisioner.isHealthy
    pure (.healthy healthy)

/-- An operation as a program that ends in what it returns or raises. -/
def program (operation : Operation) :
    Prog AdminCall AdminCall.Reply (Except AdminExn Returned) :=
  (admin.method rt operation ()).bind fun ended ↦ .done ended.1

end Administrator

end NhiSentinel.Identity
