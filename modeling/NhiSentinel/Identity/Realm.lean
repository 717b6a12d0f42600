import NhiSentinel.Base.Interleave
import NhiSentinel.Identity.Administration
import NhiSentinel.Identity.KeyAgreement

/-!
# Vault and Keycloak under administration

The two servers with all that the administration reads and changes of them: the keypairs in
Vault, and the clients of Keycloak with their identifiers, which are given out once. Seen from
the calls of `provision`, they are the servers of `KeyAgreement`.
-/

namespace NhiSentinel.Identity
open NhiSentinel.Base

/-- A client of Keycloak: its identifier there, whether it may log in, and its public key. -/
structure KeycloakClient where
  id : String
  enabled : Bool
  key : String

/-- The keypairs in Vault by URL, the clients of Keycloak, and the identifiers that were given
out, each with the client it is for. -/
structure Realm where
  vault : String → Option KeyPair
  clients : String → Option KeycloakClient
  issued : List (String × String)

namespace Realm

/-- Vault with a new version of an entry, or with none. -/
def store (w : Realm) (url : String) (pair : Option KeyPair) : Realm :=
  { w with vault := Function.update w.vault url pair }

/-- Keycloak with a new client. -/
def register (w : Realm) (clientId : String) (client : KeycloakClient) : Realm :=
  { w with
    clients := Function.update w.clients clientId (some client)
    issued := (client.id, clientId) :: w.issued }

/-- Keycloak with a client changed or removed. -/
def change (w : Realm) (clientId : String) (client : Option KeycloakClient) : Realm :=
  { w with clients := Function.update w.clients clientId client }

section
variable (w : Realm) (url clientId : String) (pair : Option KeyPair) (client : KeycloakClient)
  (client? : Option KeycloakClient)

/-- A key pair that is stored is in the vault. -/
@[simp] theorem vault_store : (w.store url pair).vault = Function.update w.vault url pair := rfl

/-- Storing a key pair leaves the clients alone. -/
@[simp] theorem clients_store : (w.store url pair).clients = w.clients := rfl

/-- Registering a client leaves the vault alone. -/
@[simp] theorem vault_register : (w.register clientId client).vault = w.vault := rfl

/-- A client that is registered is there. -/
@[simp] theorem clients_register :
    (w.register clientId client).clients = Function.update w.clients clientId (some client) := rfl

/-- A client that is changed or deleted. -/
@[simp] theorem clients_change :
    (w.change clientId client?).clients = Function.update w.clients clientId client? := rfl

end

/-- Every client has an identifier that was given out for it, and none was given out twice. -/
structure Sound (w : Realm) : Prop where
  issued : ∀ clientId client, w.clients clientId = some client → (client.id, clientId) ∈ w.issued
  once : ∀ id a b, (id, a) ∈ w.issued → (id, b) ∈ w.issued → a = b

end Realm

/-! ### Answers -/

/-- A request with a body in its answer went through. -/
def Bodied (reply : Except String Answer) : Prop :=
  ∃ answer, reply = .ok answer ∧ Pep.isSuccess answer.statusCode = true

/-- A body that lists the client that there is, or none. -/
def Lists (body : Value) : Option KeycloakClient → Prop
  | none => body = .arr []
  | some client => ∃ entry, body = .arr [entry] ∧ subscript "id" entry = .ok (.str client.id)

/-- A body that has a keypair. -/
def Shows (body : Value) (pair : KeyPair) : Prop :=
  ∃ secret data, subscript "data" body = .ok secret ∧ subscript "data" secret = .ok data ∧
    subscript "private_key" data = .ok (.str pair.privatePem) ∧
    subscript "public_key" data = .ok (.str pair.publicPem)

/-- The replies of the servers that leave them as they are. A request to change something then
did not go through; one to read something is answered with what is there, if it goes through. -/
def Idle (w : Realm) : (c : AdminCall) → c.Reply → Prop
  | .provisioning (.put ..), reply => ¬ Succeeds reply
  | .provisioning (.post _ _ json), reply => ¬ Succeeds reply ∧
      (reply = .ok 409 → ∀ clientId key, client? json = some (clientId, key) →
        w.clients clientId ≠ none)
  | .getClients _ _ clientId, reply => ∀ answer, reply = .ok answer →
      Pep.isSuccess answer.statusCode = true →
        ∃ body, answer.json = .ok body ∧ Lists body (w.clients clientId)
  | .getSecret url _, reply => ∀ answer, reply = .ok answer →
      Pep.isSuccess answer.statusCode = true →
        ∃ body pair, answer.json = .ok body ∧ w.vault url = some pair ∧ Shows body pair
  | .putClient .., reply => ¬ Succeeds reply
  | .deleteClient .., reply => ¬ Succeeds reply
  | .deleteSecret .., reply => ¬ Succeeds reply
  | _, _ => True

/-- How the servers answer a call. A request that does not go through is carried out or not; a
client that exists is never replaced, and asking for it again is a 409. -/
inductive Administers (base : IdentityProvisioner) (w : Realm) :
    (c : AdminCall) → c.Reply → Realm → Prop where
  | idle {c : AdminCall} {reply : c.Reply} (h : Idle w c reply) : Administers base w c reply w
  | stored {url token : String} {json : Value} {pair : KeyPair} (hj : secret? json = some pair)
      (reply : Except String Nat) :
      Administers base w (.provisioning (.put url token json)) reply (w.store url (some pair))
  | registered {url token clientId key id : String} {json : Value} {enabled : Bool}
      (hj : client? json = some (clientId, key)) (he : json.get? "enabled" = some (.bool enabled))
      (hn : w.clients clientId = none) (hi : ∀ a, (id, a) ∉ w.issued)
      {reply : Except String Nat} (hr : reply ≠ .ok 409) :
      Administers base w (.provisioning (.post url token json)) reply
        (w.register clientId ⟨id, enabled, key⟩)
  | changed {token clientId : String} {json : Value} {client : KeycloakClient} {enabled : Bool}
      (hc : w.clients clientId = some client) (he : json.get? "enabled" = some (.bool enabled))
      (reply : Except String Nat) :
      Administers base w (.putClient (base.clientUrl client.id) token json) reply
        (w.change clientId (some { client with enabled := enabled }))
  | removed {token clientId : String} {client : KeycloakClient}
      (hc : w.clients clientId = some client) (reply : Except String Nat) :
      Administers base w (.deleteClient (base.clientUrl client.id) token) reply
        (w.change clientId none)
  | erased (agentId token : String) (reply : Except String Nat) :
      Administers base w (.deleteSecret (base.metadataUrl agentId) token) reply
        (w.store (base.keypairUrl agentId) none)

/-- The two servers of a deployment as a world. -/
def adminWorld (base : IdentityProvisioner) (ι : Type) :
    World ι AdminCall AdminCall.Reply Realm where
  answer w _ := Administers base w
  background _ _ := False

/-! ### Below: the servers of `provision` -/

/-- The servers as the calls of `provision` see them. -/
def Realm.servers (w : Realm) : Servers where
  vault := w.vault
  clients clientId := (w.clients clientId).map KeycloakClient.key

section
variable {base : IdentityProvisioner} {w w' : Realm}

/-- Every answer to a call of `provision` is one of the servers of `KeyAgreement`. -/
theorem Administers.provides {c : ProvisionCall} {reply : c.Reply}
    (h : Administers base w (.provisioning c) reply w') :
    Provides w.servers c reply w'.servers := by
  cases h with
  | idle hi =>
    cases c with
    | loadManifest path => exact .loadManifest path reply
    | generateRsaKeypair => exact .generateRsaKeypair reply
    | clock => exact .clock reply
    | put url token json => exact .notStored hi
    | post url token json => exact .notRegistered hi.1
  | stored hj reply => exact .stored hj reply
  | @registered url token clientId key id json enabled hj he hn hi _ hr =>
    have hs : (w.register clientId ⟨id, enabled, key⟩).servers =
        w.servers.register clientId key := by
      simp only [Realm.servers, Servers.register, Realm.register, Servers.mk.injEq, true_and]
      funext c
      by_cases hc : c = clientId
      · subst hc
        rw [Function.update_self, Function.update_self]
        rfl
      · rw [Function.update_of_ne hc, Function.update_of_ne hc]
    rw [hs]
    exact .registered hj (congrArg (Option.map _) hn) hr

/-! ### What a call keeps -/

/-- Identifiers are never taken back. -/
theorem Administers.issued {c : AdminCall} {reply : c.Reply}
    (h : Administers base w c reply w') {id clientId : String} (hi : (id, clientId) ∈ w.issued) :
    (id, clientId) ∈ w'.issued := by
  cases h with
  | registered => exact List.mem_cons_of_mem _ hi
  | idle | stored | changed | removed | erased => exact hi

/-- A change to a client whose identifier was given out for it keeps the realm sound. -/
theorem Realm.Sound.change {clientId : String} {client : Option KeycloakClient} (h : w.Sound)
    (hc : ∀ c, client = some c → (c.id, clientId) ∈ w.issued) :
    (w.change clientId client).Sound := by
  refine ⟨fun a c ha ↦ ?_, h.once⟩
  rw [clients_change, Function.update_apply] at ha
  split at ha
  · next he =>
    subst he
    exact hc c ha
  · exact h.issued a c ha

/-- A client with a new identifier keeps the realm sound. -/
theorem Realm.Sound.register {clientId : String} {client : KeycloakClient} (h : w.Sound)
    (hn : ∀ a, (client.id, a) ∉ w.issued) : (w.register clientId client).Sound := by
  constructor
  · intro a c ha
    rw [clients_register, Function.update_apply] at ha
    split at ha
    · next he =>
      subst he
      cases ha
      exact List.mem_cons_self
    · exact List.mem_cons_of_mem _ (h.issued a c ha)
  · intro id a b ha hb
    rcases List.mem_cons.mp ha with ha | ha <;> rcases List.mem_cons.mp hb with hb | hb
    · cases ha
      cases hb
      rfl
    · cases ha
      exact absurd hb (hn b)
    · cases hb
      exact absurd ha (hn a)
    · exact h.once id a b ha hb

/-- Every call keeps the identifiers in order. -/
theorem Administers.sound {c : AdminCall} {reply : c.Reply}
    (h : Administers base w c reply w') (hw : w.Sound) : w'.Sound := by
  cases h with
  | idle => exact hw
  | stored | erased => exact ⟨hw.issued, hw.once⟩
  | registered _ _ _ hi => exact hw.register hi
  | changed hc =>
    refine hw.change fun c he ↦ ?_
    cases he
    have hi := hw.issued _ _ hc
    exact hi
  | removed => exact hw.change nofun

end

end NhiSentinel.Identity
