import NhiSentinel.Base.Replace
import NhiSentinel.Base.Words
import NhiSentinel.Identity.ManifestSchema
import NhiSentinel.Identity.TokenManager
import NhiSentinel.Pep.Client

/-!
# The identity provisioner

`IdentityProvisioner.provision` of `identity/provisioner.py` as a program over the manifest
file, the key generator, Vault and the admin API of Keycloak. Points in time are in
microseconds; logging is left out.
-/

namespace NhiSentinel.Identity
open NhiSentinel.Base

/-- `AgentIdentitySpec`, `identity/manifest_schema.py:39`, with what only provisioning reads. -/
structure ProvisioningSpec extends AgentIdentitySpec where
  ownerTeam : String
  credentialTtlDays : Nat := 90
  ttl_pos : 0 < credentialTtlDays := by decide
  ttl_le : credentialTtlDays ≤ 365 := by decide

/-- `AgentIdentityManifest`, `identity/manifest_schema.py:70`, with that specification. -/
structure ProvisioningManifest where
  metadata : AgentIdentityMetadata
  spec : ProvisioningSpec

/-- `IdentityState`, `identity/manifest_schema.py:88`. -/
inductive IdentityState where
  | pendingApproval
  | active
  | expiring
  | expired
  | suspended
  | revoked
  deriving DecidableEq

/-- `ActiveIdentityRecord`, `identity/manifest_schema.py:97`, without the time of an attestation,
which is not set. -/
structure ActiveIdentityRecord where
  identityId : String
  agentType : AgentType
  ownerTeam : String
  state : IdentityState
  keycloakClientId : String
  vaultPath : String
  manifestGitSha : String
  createdAt : Nat
  expiresAt : Nat
  scopes : List String

/-- What `generate_rsa_keypair` returns, `token_manager.py:153`. -/
structure KeyPair where
  privatePem : String
  publicPem : String
  deriving DecidableEq

/-- `IdentityProvisioner`, `provisioner.py:119`, with its clients for Vault and Keycloak: the
settings and the access token of the administrator. -/
structure IdentityProvisioner where
  settings : Settings := {}
  vaultAddr : String := "http://localhost:8200"
  vaultToken : String := "dev-root-token"
  vaultSecretsMount : String := "secret"
  adminToken : String

/-- The calls that leave the provisioner. -/
inductive ProvisionCall where
  /-- `_load_manifest`, `provisioner.py:168`. -/
  | loadManifest (path : String)
  | generateRsaKeypair
  /-- `httpx.put` with the token of Vault. -/
  | put (url vaultToken : String) (json : Value)
  /-- `httpx.post` with the token of the administrator. -/
  | post (url adminToken : String) (json : Value)
  | clock

/-- What a call is answered; a request by its status code. -/
@[reducible] def ProvisionCall.Reply : ProvisionCall → Type
  | loadManifest _ => Except String ProvisioningManifest
  | generateRsaKeypair => KeyPair
  | put .. => Except String Nat
  | post .. => Except String Nat
  | clock => Nat

/-- A call together with its reply. -/
abbrev ProvisionEvent := Sigma ProvisionCall.Reply

/-- A method of the provisioner; exceptions are given by class name. -/
abbrev ProvisionMethod := Py Unit String ProvisionCall ProvisionCall.Reply

/-- `raise_for_status`. -/
def raiseForStatus (status : Nat) : ProvisionMethod Unit :=
  if Pep.isSuccess status then pure () else Py.raise "HTTPStatusError"

/-- `str.replace(old, "")`. -/
def without (old s : String) : String :=
  String.ofList (Python.removeAll old.toList s.toList)

/-- The key in a PEM text as Keycloak takes it, `provisioner.py:59–65`. -/
def keyValue (publicKeyPem : String) : String :=
  Python.strip (without "\n" (without "-----END PUBLIC KEY-----"
    (without "-----BEGIN PUBLIC KEY-----" publicKeyPem)))

/-- The payload of a client, `provisioner.py:67`. -/
def clientPayload (clientId publicKeyPem : String) : Value :=
  .obj [
    ("clientId", .str clientId),
    ("enabled", .bool true),
    ("protocol", .str "openid-connect"),
    ("publicClient", .bool false),
    ("serviceAccountsEnabled", .bool true),
    ("standardFlowEnabled", .bool false),
    ("directAccessGrantsEnabled", .bool false),
    ("clientAuthenticatorType", .str "client-jwt"),
    ("attributes", .obj [
      ("jwt.credential.public.key", .str (keyValue publicKeyPem)),
      ("use.jwks.url", .str "false"),
      ("token.endpoint.auth.signing.alg", .str "RS256")])]

/-- The body that stores a keypair, `vault_client.py:33`. -/
def keypairBody (pair : KeyPair) : Value :=
  .obj [("data", .obj [
    ("private_key", .str pair.privatePem),
    ("public_key", .str pair.publicPem)])]

namespace IdentityProvisioner

/-- Call the environment. -/
def ask (c : ProvisionCall) : ProvisionMethod c.Reply := Py.ask c

variable (provisioner : IdentityProvisioner)

/-- Where Vault keeps the keypair of an agent, `vault_client.py:29`. -/
def keypairUrl (agentId : String) : String :=
  s!"{provisioner.vaultAddr}/v1/{provisioner.vaultSecretsMount}/data/agents/" ++ agentId ++
    "/keypair"

/-- Where Keycloak takes clients, `provisioner.py:83`. -/
def clientsUrl : String :=
  s!"{provisioner.settings.keycloakUrl}/admin/realms/{provisioner.settings.keycloakRealm}/clients"

/-- `write_agent_keypair`, `vault_client.py:28`. -/
def writeAgentKeypair (agentId : String) (pair : KeyPair) : ProvisionMethod Unit := do
  let reply : Except String Nat ←
    ask (.put (provisioner.keypairUrl agentId) provisioner.vaultToken (keypairBody pair))
  let status ← Py.ofExcept reply
  raiseForStatus status

/-- `create_client`, `provisioner.py:56`: a client that exists is left as it is. -/
def createClient (clientId publicKeyPem : String) : ProvisionMethod Unit := do
  let reply : Except String Nat ←
    ask (.post provisioner.clientsUrl provisioner.adminToken
      (clientPayload clientId publicKeyPem))
  let status ← Py.ofExcept reply
  if status = 409 then pure () else raiseForStatus status

/-- `provision`, `provisioner.py:127`. -/
def provision (manifestPath : String) : ProvisionMethod ActiveIdentityRecord := do
  let loaded : Except String ProvisioningManifest ← ask (.loadManifest manifestPath)
  let manifest ← Py.ofExcept loaded
  let agentId := manifest.metadata.name
  let pair : KeyPair ← ask .generateRsaKeypair
  provisioner.writeAgentKeypair agentId pair
  provisioner.createClient agentId pair.publicPem
  let now : Nat ← ask .clock
  pure {
    identityId := agentId
    agentType := manifest.spec.agentType
    ownerTeam := manifest.spec.ownerTeam
    state := .active
    keycloakClientId := agentId
    vaultPath := s!"agents/{agentId}/keypair"
    manifestGitSha := "local"
    createdAt := now
    expiresAt := now + manifest.spec.credentialTtlDays * 86400 * 1000000
    scopes := manifest.spec.scopes }

/-- The first part of a URL is the same for all agents. -/
theorem keypairUrl_injective : Function.Injective provisioner.keypairUrl := by
  intro a b h
  have ht := congrArg String.toList h
  simp only [keypairUrl, String.toList_append] at ht
  exact String.toList_injective (List.append_cancel_left (List.append_cancel_right ht))

end IdentityProvisioner

end NhiSentinel.Identity
