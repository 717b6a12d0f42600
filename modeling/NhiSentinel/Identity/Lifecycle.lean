import NhiSentinel.Identity.Operations
import NhiSentinel.Identity.Realm

/-!
# The life of an identity

Any number of operations on the identities of one deployment, interleaved call by call: what
each of them has brought about once it has returned, and until which requests it lasts.
-/

namespace NhiSentinel.Identity
open NhiSentinel.Base

/-! ### Requests -/

section
variable {ι : Type} (operations : ι → Operation) (base : IdentityProvisioner) (name : AgentName)

/-- A suspension of the agent asks to take its client out of service. -/
def Suspends (d : ι × AdminEvent) : Prop :=
  operations d.1 = .suspendClient name ∧ ∃ url token json, d.2.1 = .putClient url token json

/-- A deletion of the agent asks to remove its client. -/
def Deletes (d : ι × AdminEvent) : Prop :=
  operations d.1 = .deleteClient name ∧ ∃ url token, d.2.1 = .deleteClient url token

/-- A client is asked for, for the agent. -/
def Registers (d : ι × AdminEvent) : Prop :=
  ∃ url token json key, d.2.1 = .provisioning (.post url token json) ∧
    client? json = some (name.1, key)

/-- A keypair of the agent is to be stored. -/
def Stores (d : ι × AdminEvent) : Prop :=
  ∃ token json, d.2.1 = .provisioning (.put (base.keypairUrl name) token json)

/-- The keypairs of the agent are to be erased. -/
def Erases (d : ι × AdminEvent) : Prop :=
  ∃ token, d.2.1 = .deleteSecret (base.metadataUrl name) token

end

/-! ### Effects -/

section
variable {ι : Type} {operations : ι → Operation} {base : IdentityProvisioner} {w w' : Realm}
  {name : AgentName} {d : ι × AdminEvent}

/-- What one call of an operation does to the servers: a suspension and a deletion change the
client of their agent and no other. -/
inductive Effect (operations : ι → Operation) (base : IdentityProvisioner) (w : Realm) :
    ι × AdminEvent → Realm → Prop where
  | idle {d : ι × AdminEvent} (h : Idle w d.2.1 d.2.2) : Effect operations base w d w
  | stored {i : ι} {url token : String} {json : Value} {pair : KeyPair}
      (hj : secret? json = some pair) (reply : Except String Nat) :
      Effect operations base w (i, ⟨.provisioning (.put url token json), reply⟩)
        (w.store url (some pair))
  | registered {i : ι} {url token clientId key id : String} {json : Value} {enabled : Bool}
      (hj : client? json = some (clientId, key)) (he : json.get? "enabled" = some (.bool enabled))
      (hn : w.clients clientId = none) {reply : Except String Nat} (hr : reply ≠ .ok 409) :
      Effect operations base w (i, ⟨.provisioning (.post url token json), reply⟩)
        (w.register clientId ⟨id, enabled, key⟩)
  | suspended {i : ι} {url token : String} {json : Value} {clientId : AgentName}
      {client : KeycloakClient} (ho : operations i = .suspendClient clientId)
      (hc : w.clients clientId = some client) (reply : Except String Nat) :
      Effect operations base w (i, ⟨.putClient url token json, reply⟩)
        (w.change clientId (some { client with enabled := false }))
  | deleted {i : ι} {url token : String} {clientId : AgentName}
      (ho : operations i = .deleteClient clientId) (reply : Except String Nat) :
      Effect operations base w (i, ⟨.deleteClient url token, reply⟩) (w.change clientId none)
  | erased {i : ι} (agentId token : String) (reply : Except String Nat) :
      Effect operations base w (i, ⟨.deleteSecret (base.metadataUrl agentId) token, reply⟩)
        (w.store (base.keypairUrl agentId) none)

/-- A suspended client stays one until it is deleted. -/
theorem Effect.disabled (h : Effect operations base w d w') (hn : ¬ Deletes operations name d)
    (hw : ∃ id key, w.clients name = some ⟨id, false, key⟩) :
    ∃ id key, w'.clients name = some ⟨id, false, key⟩ := by
  obtain ⟨id, key, hc⟩ := hw
  cases h with
  | idle | stored | erased => exact ⟨id, key, hc⟩
  | registered hj he hno hr =>
    refine ⟨id, key, ?_⟩
    rw [Realm.clients_register, Function.update_of_ne, hc]
    rintro rfl
    rw [hc] at hno
    cases hno
  | @suspended i url token json clientId client ho hc' reply =>
    by_cases he : name.1 = clientId.1
    · rw [he] at hc
      cases hc.symm.trans hc'
      refine ⟨id, key, ?_⟩
      rw [Realm.clients_change, he, Function.update_self]
    · refine ⟨id, key, ?_⟩
      rw [Realm.clients_change, Function.update_of_ne he, hc]
  | @deleted i url token clientId ho reply =>
    refine ⟨id, key, ?_⟩
    rw [Realm.clients_change, Function.update_of_ne, hc]
    intro he
    obtain rfl : name = clientId := Subtype.ext he
    exact hn ⟨ho, url, token, rfl⟩

/-- A removed client stays away until one is asked for. -/
theorem Effect.absent (h : Effect operations base w d w') (hn : ¬ Registers name d)
    (hw : w.clients name = none) : w'.clients name = none := by
  cases h with
  | idle | stored | erased => exact hw
  | @registered i url token clientId key id json enabled hj he hno reply hr =>
    rw [Realm.clients_register, Function.update_of_ne, hw]
    rintro rfl
    exact hn ⟨url, token, json, key, rfl, hj⟩
  | @suspended i url token json clientId client ho hc' reply =>
    rw [Realm.clients_change, Function.update_of_ne, hw]
    intro he
    rw [← he, hw] at hc'
    cases hc'
  | @deleted i url token clientId ho reply =>
    rw [Realm.clients_change, Function.update_apply, hw]
    split <;> rfl

/-- A client stays as it is until it is suspended or deleted. -/
theorem Effect.client (h : Effect operations base w d w') (hs : ¬ Suspends operations name d)
    (hd : ¬ Deletes operations name d) {client : KeycloakClient}
    (hw : w.clients name = some client) : w'.clients name = some client := by
  cases h with
  | idle | stored | erased => exact hw
  | registered hj he hno hr =>
    rw [Realm.clients_register, Function.update_of_ne, hw]
    rintro rfl
    rw [hw] at hno
    cases hno
  | @suspended i url token json clientId client ho hc' reply =>
    rw [Realm.clients_change, Function.update_of_ne, hw]
    intro he
    obtain rfl : name = clientId := Subtype.ext he
    exact hs ⟨ho, url, token, json, rfl⟩
  | @deleted i url token clientId ho reply =>
    rw [Realm.clients_change, Function.update_of_ne, hw]
    intro he
    obtain rfl : name = clientId := Subtype.ext he
    exact hd ⟨ho, url, token, rfl⟩

/-- A client stays, in service or not, until it is deleted. -/
theorem Effect.present (h : Effect operations base w d w') (hd : ¬ Deletes operations name d)
    (hw : w.clients name ≠ none) : w'.clients name ≠ none := by
  obtain ⟨client, hc⟩ := Option.ne_none_iff_exists'.mp hw
  by_cases hs : Suspends operations name d
  · cases h with
    | idle => exact hw
    | @suspended i url token json clientId client ho hc' reply =>
      cases ho.symm.trans hs.1
      rw [Realm.clients_change, Function.update_self]
      exact Option.some_ne_none _
    | stored | registered | deleted | erased =>
      obtain ⟨-, _, _, _, he⟩ := hs
      cases he
  · rw [h.client hs hd hc]
    exact Option.some_ne_none _

/-- What Vault has for an agent stays until a keypair is to be stored or erased. -/
theorem Effect.vault (h : Effect operations base w d w') (hs : ¬ Stores base name d)
    (he : ¬ Erases base name d) :
    w'.vault (base.keypairUrl name) = w.vault (base.keypairUrl name) := by
  cases h with
  | idle | registered | suspended | deleted => rfl
  | @stored i url token json pair hj reply =>
    rw [Realm.vault_store, Function.update_of_ne]
    rintro rfl
    exact hs ⟨token, json, rfl⟩
  | erased agentId token reply =>
    rw [Realm.vault_store, Function.update_of_ne]
    intro hu
    obtain rfl := base.keypairUrl_injective hu
    exact he ⟨token, rfl⟩

/-- Where Vault has nothing for an agent it has nothing until a keypair is to be stored. -/
theorem Effect.empty (h : Effect operations base w d w') (hs : ¬ Stores base name d)
    (hv : w.vault (base.keypairUrl name) = none) : w'.vault (base.keypairUrl name) = none := by
  cases h with
  | idle | registered | suspended | deleted => exact hv
  | @stored i url token json pair hj reply =>
    rw [Realm.vault_store, Function.update_of_ne, hv]
    rintro rfl
    exact hs ⟨token, json, rfl⟩
  | erased agentId token reply =>
    rw [Realm.vault_store, Function.update_apply, hv]
    split <;> rfl

end

/-! ### Operations among each other -/

/-- Replies with which every operation comes to an end. -/
def calmAdminReply : (c : AdminCall) → c.Reply
  | .provisioning (.loadManifest _) => .error ""
  | .provisioning .generateRsaKeypair => ⟨"", ""⟩
  | .provisioning (.put ..) => .error ""
  | .provisioning (.post ..) => .error ""
  | .provisioning .clock => (0 : Nat)
  | .token .. => .error ""
  | .getClients .. => .error ""
  | .putClient .. => .error ""
  | .deleteClient .. => .error ""
  | .getSecret .. => .error ""
  | .deleteSecret .. => .error ""
  | .getHealth .. => .error (.other "")

/-- What operations of one administrator reach among each other. -/
abbrev Administered {ι : Type} [DecidableEq ι] (rt : Runtime) (admin : Administrator)
    (operations : ι → Operation) (w₀ : Realm) :=
  Reach (adminWorld admin.provisioner ι) (fun i ↦ admin.program rt (operations i)) w₀

section
variable {ι : Type} [DecidableEq ι] {rt : Runtime} {admin : Administrator}
  {operations : ι → Operation} {t : List (ι × AdminEvent)} {w₀ w w' : Realm}
  {p : ι → Prog AdminCall AdminCall.Reply (Except AdminExn Returned)}
  {name : AgentName}

/-- Whoever makes a call is on its course. -/
theorem course_of_call (h : Administered rt admin operations w₀ t p w)
    {i : ι} {c : AdminCall}
    {k : c.Reply → Prog AdminCall AdminCall.Reply (Except AdminExn Returned)}
    (hp : p i = .call c k) (r : c.Reply) :
    ∃ u out, Course rt admin (operations i) (eventsOf i t ++ ⟨c, r⟩ :: u) out := by
  have hs := h.steps i
  rw [hp] at hs
  obtain ⟨u, out, hr, -⟩ :=
    (hs.trans (Prog.Steps.call r (.refl _))).exists_run calmAdminReply
  rw [List.append_assoc, List.singleton_append] at hr
  exact ⟨u, out, Administrator.program_course hr⟩

private theorem course_of_done (h : Administered rt admin operations w₀ t p w)
    {i : ι} {out : Except AdminExn Returned} (hp : p i = .done out) :
    Course rt admin (operations i) (eventsOf i t) out := by
  have hs := h.steps i
  rw [hp] at hs
  exact Administrator.program_course hs

/-- Whatever the operations, the realm stays sound. -/
theorem sound_of_reach (h : Administered rt admin operations w₀ t p w)
    (h₀ : w₀.Sound) : w.Sound := by
  induction h with
  | start => exact h₀
  | call h i hp r ha ih => exact ha.sound ih
  | background h hb ih => exact hb.elim

private theorem eq_of_third {α : Type} {a u : List α} {x e₁ e₂ e₃ : α}
    (h : a ++ x :: u = [e₁, e₂, e₃]) (h₁ : x ≠ e₁) (h₂ : x ≠ e₂) : a = [e₁, e₂] ∧ x = e₃ := by
  match a with
  | [] =>
    cases h
    exact absurd rfl h₁
  | [_] =>
    cases h
    exact absurd rfl h₂
  | [_, _] =>
    cases h
    exact ⟨rfl, rfl⟩
  | _ :: _ :: _ :: _ => simp at h

/-- Who asks to change a client has found it before. -/
theorem found_of_putClient (h : Administered rt admin operations w₀ t p w)
    {i : ι} {url token : String} {json : Value}
    {k : Except String Nat → Prog AdminCall AdminCall.Reply (Except AdminExn Returned)}
    (hp : p i = .call (.putClient url token json) k) :
    ∃ clientId lookup id, operations i = .suspendClient clientId ∧
      json = IdentityProvisioner.disable ∧
      url = admin.provisioner.clientUrl (Python.str rt id) ∧ Finds lookup id ∧
      (i, ⟨.getClients admin.provisioner.clientsUrl token clientId, lookup⟩) ∈ t := by
  obtain ⟨u, out, hc⟩ := course_of_call h hp (.error "")
  have hm : (⟨.putClient url token json, .error ""⟩ : AdminEvent) ∈
      eventsOf i t ++ ⟨.putClient url token json, .error ""⟩ :: u := by simp
  generalize hop : operations i = operation at hc
  generalize hl : eventsOf i t ++ ⟨.putClient url token json, .error ""⟩ :: u = l at hc hm
  cases hc with
  | suspended clientId reply token' hf hs =>
    obtain ⟨ha, he⟩ := eq_of_third hl (fun he ↦ by cases he) (fun he ↦ by cases he)
    cases he
    refine ⟨clientId, _, _, rfl, rfl, rfl, hf, mem_eventsOf.mp ?_⟩
    rw [ha]
    exact List.mem_cons_of_mem _ (List.mem_singleton_self _)
  | provisioned => simp at hm
  | unconnected | unknown | deleted | read | erased | asked => simp at hm

/-- Who asks to remove a client has found it before. -/
theorem found_of_deleteClient (h : Administered rt admin operations w₀ t p w)
    {i : ι} {url token : String}
    {k : Except String Nat → Prog AdminCall AdminCall.Reply (Except AdminExn Returned)}
    (hp : p i = .call (.deleteClient url token) k) :
    ∃ clientId lookup id, operations i = .deleteClient clientId ∧
      url = admin.provisioner.clientUrl (Python.str rt id) ∧ Finds lookup id ∧
      (i, ⟨.getClients admin.provisioner.clientsUrl token clientId, lookup⟩) ∈ t := by
  obtain ⟨u, out, hc⟩ := course_of_call h hp (.error "")
  have hm : (⟨.deleteClient url token, .error ""⟩ : AdminEvent) ∈
      eventsOf i t ++ ⟨.deleteClient url token, .error ""⟩ :: u := by simp
  generalize hop : operations i = operation at hc
  generalize hl : eventsOf i t ++ ⟨.deleteClient url token, .error ""⟩ :: u = l at hc hm
  cases hc with
  | deleted clientId reply token' hf hs =>
    obtain ⟨ha, he⟩ := eq_of_third hl (fun he ↦ by cases he) (fun he ↦ by cases he)
    cases he
    refine ⟨clientId, _, _, rfl, rfl, hf, mem_eventsOf.mp ?_⟩
    rw [ha]
    exact List.mem_cons_of_mem _ (List.mem_singleton_self _)
  | provisioned => simp at hm
  | unconnected | unknown | suspended | read | erased | asked => simp at hm

/-- An identifier that was found is one that was given out for the client. -/
theorem issued_of_found (h : Administered rt admin operations w₀ t p w)
    (h₀ : w₀.Sound) {i : ι} {url token clientId : String} {lookup : Except String Answer}
    {id : Value} (hf : Finds lookup id) (hm : (i, ⟨.getClients url token clientId, lookup⟩) ∈ t) :
    ∃ s, id = .str s ∧ (s, clientId) ∈ w.issued := by
  obtain ⟨answer, body, entry, rfl, hs, hj, ht, he, hid⟩ := hf
  obtain ⟨before, after, hl⟩ := List.append_of_mem hm
  refine h.since (P := fun w ↦ ∃ s, id = .str s ∧ (s, clientId) ∈ w.issued)
    (E := fun _ ↦ False) hl (fun _ _ he ↦ he) ?_ ?_ (fun hb _ ↦ hb.elim)
  · intro p w w' k hr _ ha
    cases ha with
    | idle hidle =>
      obtain ⟨body', hj', hb⟩ := hidle answer rfl hs
      cases hj.symm.trans hj'
      cases hc : w.clients clientId with
      | none =>
        rw [hc] at hb
        rw [hb] at ht
        cases ht
      | some client =>
        rw [hc] at hb
        obtain ⟨entry', rfl, hi⟩ := hb
        cases he
        cases hid.symm.trans hi
        exact ⟨_, rfl, (sound_of_reach hr h₀).issued _ _ hc⟩
  · rintro t p w w' d k - - ha - ⟨s, rfl, hi⟩
    exact ⟨s, rfl, ha.issued hi⟩

private theorem clientId_of_found (h : Administered rt admin operations w₀ t p w)
    (h₀ : w₀.Sound) {i : ι} {url token clientId clientId' : String} {client : KeycloakClient}
    {lookup : Except String Answer} {id : Value} (hf : Finds lookup id)
    (hm : (i, ⟨.getClients url token clientId, lookup⟩) ∈ t)
    (hc : w.clients clientId' = some client)
    (hu : admin.provisioner.clientUrl client.id =
      admin.provisioner.clientUrl (Python.str rt id)) : clientId' = clientId := by
  obtain ⟨s, rfl, hi⟩ := issued_of_found h h₀ hf hm
  have hs := sound_of_reach h h₀
  have hid : client.id = s := admin.provisioner.clientUrl_injective hu
  exact hs.once s _ _ (hid ▸ hs.issued _ _ hc) hi

/-- Every answered call of an operation has one of these effects. -/
theorem effect_of_answer (h : Administered rt admin operations w₀ t p w)
    (h₀ : w₀.Sound) {d : ι × AdminEvent}
    {k : d.2.1.Reply → Prog AdminCall AdminCall.Reply (Except AdminExn Returned)}
    (hp : p d.1 = .call d.2.1 k) (ha : Administers admin.provisioner w d.2.1 d.2.2 w') :
    Effect operations admin.provisioner w d w' := by
  obtain ⟨i, c, reply⟩ := d
  cases ha with
  | idle hi => exact .idle hi
  | stored hj reply => exact .stored hj reply
  | registered hj he hn hi hr => exact .registered hj he hn hr
  | changed hc he reply =>
    obtain ⟨clientId, lookup, id, ho, rfl, hu, hf, hm⟩ := found_of_putClient h hp
    obtain rfl := clientId_of_found h h₀ hf hm hc hu
    cases he
    exact .suspended ho hc reply
  | removed hc reply =>
    obtain ⟨clientId, lookup, id, ho, hu, hf, hm⟩ := found_of_deleteClient h hp
    obtain rfl := clientId_of_found h h₀ hf hm hc hu
    exact .deleted ho reply
  | erased agentId token reply => exact .erased agentId token reply

/-- What a call brings about lasts until a call that ends it. -/
theorem lasts (h : Administered rt admin operations w₀ t p w)
    (h₀ : w₀.Sound) {P : Realm → Prop} {E : ι × AdminEvent → Prop}
    {before after : List (ι × AdminEvent)} {d : ι × AdminEvent} (ht : t = before ++ d :: after)
    (hn : ∀ e ∈ after, ¬ E e)
    (bring : ∀ {w w'}, Effect operations admin.provisioner w d w' → P w')
    (keep : ∀ {w w' e}, Effect operations admin.provisioner w e w' → ¬ E e → P w → P w') :
    P w := by
  refine h.since ht hn ?_ ?_ (fun hb _ ↦ hb.elim)
  · intro p w w' k hr hp ha
    exact bring (effect_of_answer hr h₀ hp ha)
  · intro t p w w' e k hr hp ha he hP
    exact keep (effect_of_answer hr h₀ hp ha) he hP

/-- While it lasts, every call is made. -/
theorem lasted (h : Administered rt admin operations w₀ t p w)
    (h₀ : w₀.Sound) {P : Realm → Prop} {E : ι × AdminEvent → Prop}
    {before after : List (ι × AdminEvent)} {d : ι × AdminEvent} (ht : t = before ++ d :: after)
    (hn : ∀ e ∈ after, ¬ E e)
    (bring : ∀ {w w'}, Effect operations admin.provisioner w d w' → P w')
    (keep : ∀ {w w' e}, Effect operations admin.provisioner w e w' → ¬ E e → P w → P w')
    {e : ι × AdminEvent} (he : e ∈ after) :
    ∃ w₁ w₂, P w₁ ∧ Effect operations admin.provisioner w₁ e w₂ := by
  obtain ⟨u, v, rfl⟩ := List.append_of_mem he
  have ht' : t = (before ++ d :: u) ++ e :: v := by
    rw [ht, List.append_assoc, List.cons_append]
  obtain ⟨p', k, w₁, w₂, hr, hp, ha⟩ := h.answered ht'
  exact ⟨w₁, w₂, lasts hr h₀ rfl (fun d hd ↦ hn d (List.mem_append_left _ hd)) bring keep,
    effect_of_answer hr h₀ hp ha⟩

end

/-! ### The life of an identity -/

section
variable {ι : Type} (operations : ι → Operation) (base : IdentityProvisioner)
  (t : List (ι × AdminEvent))
  (p : ι → Prog AdminCall AdminCall.Reply (Except AdminExn Returned)) (w : Realm)
  (name : AgentName)

/-- From a suspension that has returned, the client of the agent is out of service until it is
deleted, and no registration of the agent goes through. -/
def SuspensionLasts : Prop :=
  ∀ i r, operations i = .suspendClient name → p i = .done (.ok r) →
    ∃ before d after, t = before ++ (i, d) :: after ∧ Suspends operations name (i, d) ∧
      ((∀ e ∈ after, ¬ Deletes operations name e) →
        (∃ id key, w.clients name = some ⟨id, false, key⟩) ∧
        ∀ j url token json reply key,
          (j, ⟨.provisioning (.post url token json), reply⟩) ∈ after →
            client? json = some (name.1, key) → ¬ Succeeds reply)

/-- From a deletion that has returned, the agent has no client until one is asked for. -/
def DeletionLasts : Prop :=
  ∀ i r, operations i = .deleteClient name → p i = .done (.ok r) →
    ∃ before d after, t = before ++ (i, d) :: after ∧ Deletes operations name (i, d) ∧
      ((∀ e ∈ after, ¬ Registers name e) → w.clients name = none)

/-- From an erasure of keys that has returned, Vault has none of the agent and none is read, until
a keypair is to be stored. -/
def ErasureLasts : Prop :=
  ∀ i r, operations i = .deleteAgentKeypair name → p i = .done (.ok r) →
    ∃ before d after, t = before ++ (i, d) :: after ∧ Erases base name (i, d) ∧
      ((∀ e ∈ after, ¬ Stores base name e) → w.vault (base.keypairUrl name) = none ∧
        ∀ j token reply, (j, ⟨.getSecret (base.keypairUrl name) token, reply⟩) ∈ after →
          ¬ Bodied reply)

/-- A private key that is read belongs to a keypair that was there from the beginning or was to be
stored for the agent. -/
def ReadsOwn (w₀ : Realm) : Prop :=
  ∀ i r, operations i = .readAgentPrivateKey name → p i = .done (.ok r) →
    ∃ pair, r = .key (.str pair.privatePem) ∧ (w₀.vault (base.keypairUrl name) = some pair ∨
      ∃ j token json reply,
        (j, ⟨.provisioning (.put (base.keypairUrl name) token json), reply⟩) ∈ t ∧
          secret? json = some pair)

/-- From a provisioning that has returned, Vault has its keypair until one is to be stored or
erased, and the client is in service with its public key until it is suspended or deleted; a client
that was there already is left as it is. -/
def ProvisionLasts : Prop :=
  ∀ i path record, operations i = .provision path → p i = .done (.ok (.record record)) →
    record.identityId = name →
      record.state = .active ∧ record.vaultPath = s!"agents/{name.1}/keypair" ∧
      ∃ pair before d middle url token reply after, t = before ++ (i, d) :: (middle ++
          (i, ⟨.provisioning (.post url token (clientPayload name pair.publicPem)), reply⟩) ::
            after) ∧
        Stores base name (i, d) ∧
        ((∀ e ∈ middle ++ after, ¬ Stores base name e ∧ ¬ Erases base name e) →
          w.vault (base.keypairUrl name) = some pair) ∧
        (reply ≠ .ok 409 →
          (∀ e ∈ after, ¬ Suspends operations name e ∧ ¬ Deletes operations name e) →
            ∃ id, w.clients name = some ⟨id, true, keyValue pair.publicPem⟩) ∧
        (reply = .ok 409 → (∀ e ∈ after, ¬ Deletes operations name e) → w.clients name ≠ none)

/-- What the operations on the identity of an agent have brought about once they have returned, and
until which requests it lasts. -/
structure Lifecycle (w₀ : Realm) : Prop where
  suspension : SuspensionLasts operations t p w name
  deletion : DeletionLasts operations t p w name
  erasure : ErasureLasts operations base t p w name
  read : ReadsOwn operations base t p name w₀
  provision : ProvisionLasts operations base t p w name

end

section
variable {ι : Type} [DecidableEq ι] {rt : Runtime} {admin : Administrator}
  {operations : ι → Operation} {t : List (ι × AdminEvent)} {w₀ w : Realm}
  {p : ι → Prog AdminCall AdminCall.Reply (Except AdminExn Returned)}
  {name : AgentName}

/-- What a suspension that has returned brings about. -/
theorem suspensionLasts (h : Administered rt admin operations w₀ t p w)
    (h₀ : w₀.Sound) : SuspensionLasts operations t p w name := by
  intro i r ho hp
  have hc := course_of_done h hp
  rw [ho] at hc
  obtain ⟨connect, lookup, url, token, reply, hl, hs⟩ := hc.of_suspendClient
  have hl' : eventsOf i t = [connect, lookup] ++ _ :: [] := hl
  obtain ⟨before, after, ht, -, -⟩ := exists_split_eventsOf hl'
  refine ⟨before, _, after, ht, ⟨ho, _, _, _, rfl⟩, fun hn ↦ ?_⟩
  have bring {w w' : Realm} (he : Effect operations admin.provisioner w
      (i, ⟨.putClient url token IdentityProvisioner.disable, reply⟩) w') :
      ∃ id key, w'.clients name = some ⟨id, false, key⟩ := by
    cases he with
    | idle hi => exact absurd hs hi
    | @suspended _ _ _ _ clientId client ho' hc reply =>
      cases ho.symm.trans ho'
      exact ⟨client.id, client.key, Function.update_self ..⟩
  refine ⟨lasts h h₀ ht hn bring Effect.disabled, ?_⟩
  intro j url token json reply key hm hj hr
  obtain ⟨w₁, w₂, ⟨id, key', hc⟩, he⟩ := lasted h h₀ ht hn bring Effect.disabled hm
  cases he with
  | idle hi => exact hi.1 hr
  | registered hj' he hno hr =>
    cases hj.symm.trans hj'
    rw [hc] at hno
    cases hno

/-- What a deletion that has returned brings about. -/
theorem deletionLasts (h : Administered rt admin operations w₀ t p w)
    (h₀ : w₀.Sound) : DeletionLasts operations t p w name := by
  intro i r ho hp
  have hc := course_of_done h hp
  rw [ho] at hc
  obtain ⟨connect, lookup, url, token, reply, hl, hs⟩ := hc.of_deleteClient
  have hl' : eventsOf i t = [connect, lookup] ++ _ :: [] := hl
  obtain ⟨before, after, ht, -, -⟩ := exists_split_eventsOf hl'
  refine ⟨before, _, after, ht, ⟨ho, _, _, rfl⟩, fun hn ↦ lasts h h₀ ht hn ?_ Effect.absent⟩
  intro w w' he
  cases he with
  | idle hi => exact absurd hs hi
  | deleted ho' reply =>
    cases ho.symm.trans ho'
    exact Function.update_self ..

/-- What an erasure of keys that has returned brings about. -/
theorem erasureLasts (h : Administered rt admin operations w₀ t p w)
    (h₀ : w₀.Sound) : ErasureLasts operations admin.provisioner t p w name := by
  intro i r ho hp
  have hc := course_of_done h hp
  rw [ho] at hc
  obtain ⟨reply, hl, hs⟩ := hc.of_deleteAgentKeypair
  have hl' : eventsOf i t = [] ++ _ :: [] := hl
  obtain ⟨before, after, ht, -, -⟩ := exists_split_eventsOf hl'
  refine ⟨before, _, after, ht, ⟨_, rfl⟩, fun hn ↦ ?_⟩
  have bring {w w' : Realm} (he : Effect operations admin.provisioner w
      (i, ⟨.deleteSecret (admin.provisioner.metadataUrl name) admin.provisioner.vaultToken,
        reply⟩) w') : w'.vault (admin.provisioner.keypairUrl name) = none := by
    generalize hu : admin.provisioner.metadataUrl name = url at he
    cases he with
    | idle hi => exact absurd hs hi
    | erased agentId token reply =>
      rw [← admin.provisioner.metadataUrl_injective hu]
      exact Function.update_self ..
  refine ⟨lasts h h₀ ht hn bring Effect.empty, ?_⟩
  rintro j token reply hm ⟨answer, rfl, hok⟩
  obtain ⟨w₁, w₂, hv, he⟩ := lasted h h₀ ht hn bring Effect.empty hm
  cases he with
  | idle hi =>
    obtain ⟨body, pair, -, hv', -⟩ := hi answer rfl hok
    rw [hv] at hv'
    cases hv'

/-- Every keypair in Vault was there from the beginning or was to be stored. -/
theorem vault_of_reach (h : Administered rt admin operations w₀ t p w)
    {url : String} {pair : KeyPair} (hv : w.vault url = some pair) :
    w₀.vault url = some pair ∨ ∃ j token json reply,
      (j, ⟨.provisioning (.put url token json), reply⟩) ∈ t ∧ secret? json = some pair := by
  induction h with
  | start => exact .inl hv
  | @call t p w w' h i c k hp r ha ih =>
    have before (hv : w.vault url = some pair) : w₀.vault url = some pair ∨
        ∃ j token json reply, (j, ⟨.provisioning (.put url token json), reply⟩) ∈
          t ++ [(i, ⟨c, r⟩)] ∧ secret? json = some pair := by
      rcases ih hv with hv | ⟨j, token, json, reply, hm, hj⟩
      · exact .inl hv
      · exact .inr ⟨j, token, json, reply, List.mem_append_left _ hm, hj⟩
    cases ha with
    | idle | registered | changed | removed => exact before hv
    | @stored url' token json pair' hj reply =>
      rw [Realm.vault_store, Function.update_apply] at hv
      split at hv
      · next hu =>
        cases hv
        subst hu
        exact .inr ⟨i, token, json, reply, List.mem_append_right _ (List.mem_singleton_self _), hj⟩
      · exact before hv
    | erased agentId token reply =>
      rw [Realm.vault_store, Function.update_apply] at hv
      split at hv
      · cases hv
      · exact before hv
  | background _ hb => exact hb.elim

/-- What a read that has returned was answered. -/
theorem readsOwn (h : Administered rt admin operations w₀ t p w) :
    ReadsOwn operations admin.provisioner t p name w₀ := by
  intro i r ho hp
  have hc := course_of_done h hp
  rw [ho] at hc
  obtain ⟨reply, key, hl, rfl, answer, body, secret, data, rfl, hs, hj, hb, hd, hk⟩ :=
    hc.of_readAgentPrivateKey
  have hl' : eventsOf i t = [] ++ _ :: [] := hl
  obtain ⟨before, after, ht, -, -⟩ := exists_split_eventsOf hl'
  obtain ⟨p', k, w₁, w₂, hr, -, ha⟩ := h.answered ht
  cases ha with
  | idle hi =>
    obtain ⟨body', pair, hj', hv, secret', data', hb', hd', hk', -⟩ := hi answer rfl hs
    cases hj.symm.trans hj'
    cases hb.symm.trans hb'
    cases hd.symm.trans hd'
    cases hk.symm.trans hk'
    refine ⟨pair, rfl, ?_⟩
    rcases vault_of_reach hr hv with hv | ⟨j, token, json, reply, hm, hj⟩
    · exact .inl hv
    · rw [ht]
      exact .inr ⟨j, token, json, reply, List.mem_append_left _ hm, hj⟩

/-- From a request to store a keypair that went through, Vault has the keypair. -/
theorem keypair_lasts (h : Administered rt admin operations w₀ t p w) (h₀ : w₀.Sound)
    {before after : List (ι × AdminEvent)} {i : ι} {token : String} {json : Value}
    {reply : Except String Nat} {pair : KeyPair}
    (ht : t = before ++
      (i, ⟨.provisioning (.put (admin.provisioner.keypairUrl name) token json), reply⟩) :: after)
    (hs : Succeeds reply) (hj : secret? json = some pair)
    (hk : ∀ e ∈ after, ¬ (Stores admin.provisioner name e ∨ Erases admin.provisioner name e)) :
    w.vault (admin.provisioner.keypairUrl name) = some pair := by
  refine lasts h h₀ (P := fun w ↦ w.vault (admin.provisioner.keypairUrl name) = some pair)
    ht hk ?_ ?_
  · intro w w' he
    cases he with
    | idle hi => exact absurd hs hi
    | stored hj' reply =>
      cases hj.symm.trans hj'
      exact Function.update_self ..
  · intro w w' e he hn hv
    rw [he.vault (fun hx ↦ hn (.inl hx)) fun hx ↦ hn (.inr hx), hv]

/-- From a registration that went through, the client is in service. -/
theorem client_lasts (h : Administered rt admin operations w₀ t p w) (h₀ : w₀.Sound)
    {before after : List (ι × AdminEvent)} {i : ι} {url token key : String} {json : Value}
    {reply : Except String Nat}
    (ht : t = before ++ (i, ⟨.provisioning (.post url token json), reply⟩) :: after)
    (hs : Succeeds reply) (hj : client? json = some (name.1, key))
    (he : json.get? "enabled" = some (.bool true))
    (hk : ∀ e ∈ after, ¬ (Suspends operations name e ∨ Deletes operations name e)) :
    ∃ id, w.clients name = some ⟨id, true, key⟩ := by
  refine lasts h h₀ (P := fun w ↦ ∃ id, w.clients name = some ⟨id, true, key⟩) ht hk ?_ ?_
  · intro w w' hx
    cases hx with
    | idle hi => exact absurd hs hi.1
    | registered hj' he' hno hr =>
      cases hj.symm.trans hj'
      cases he.symm.trans he'
      exact ⟨_, Function.update_self ..⟩
  · rintro w w' e hx hn ⟨id, hc⟩
    exact ⟨id, hx.client (fun hy ↦ hn (.inl hy)) (fun hy ↦ hn (.inr hy)) hc⟩

/-- From a registration that was a conflict, there is a client. -/
theorem conflict_lasts (h : Administered rt admin operations w₀ t p w) (h₀ : w₀.Sound)
    {before after : List (ι × AdminEvent)} {i : ι} {url token key : String} {json : Value}
    (ht : t = before ++ (i, ⟨.provisioning (.post url token json), .ok 409⟩) :: after)
    (hj : client? json = some (name.1, key)) (hk : ∀ e ∈ after, ¬ Deletes operations name e) :
    w.clients name ≠ none := by
  refine lasts h h₀ ht hk ?_ Effect.present
  intro w w' he
  cases he with
  | idle hi => exact hi.2 rfl _ _ hj
  | registered hj' he hno hr => exact absurd rfl hr

/-- What a provisioning that has returned brings about. -/
theorem provisionLasts (h : Administered rt admin operations w₀ t p w)
    (h₀ : w₀.Sound) : ProvisionLasts operations admin.provisioner t p w name := by
  intro i path record ho hp hn
  have hc := course_of_done h hp
  rw [ho] at hc
  obtain ⟨connect, token, u, hl, hr⟩ := hc.of_provision
  obtain ⟨manifest, pair, stored, reply, now, rfl, hs, hrep, hid, hst, hvp⟩ :=
    IdentityProvisioner.provision_returns hr
  rw [hn] at hid
  rw [← hid] at hl hvp
  have hl' : eventsOf i t = [_, _, _] ++ _ :: [_, _] := hl
  obtain ⟨before, rest, ht, -, hrest⟩ := exists_split_eventsOf hl'
  have hrest' : eventsOf i rest = [] ++ _ :: [_] := hrest
  obtain ⟨middle, after, rfl, -, -⟩ := exists_split_eventsOf hrest'
  refine ⟨hst, hvp, pair, before, _, middle, _, _, reply, after, ht, ⟨_, _, rfl⟩, ?_⟩
  have ht' := ht
  rw [← List.cons_append, ← List.append_assoc] at ht'
  refine ⟨fun hk ↦ keypair_lasts h h₀ ht hs rfl fun e he ↦ ?_, fun h409 hk ↦ ?_, ?_⟩
  · -- the registration is neither
    rcases List.mem_append.mp he with he | he
    · exact not_or.mpr (hk e (List.mem_append_left _ he))
    · rcases List.mem_cons.mp he with rfl | he
      · rintro (⟨_, _, he⟩ | ⟨_, he⟩)
        · cases he
        · cases he
      · exact not_or.mpr (hk e (List.mem_append_right _ he))
  · exact client_lasts h h₀ ht' (hrep.resolve_left h409) rfl rfl fun e he ↦ not_or.mpr (hk e he)
  · rintro rfl hk
    exact conflict_lasts h h₀ ht' rfl hk

/-- What every operation brings about in any interleaving with others. -/
theorem identity_lifecycle (h : Administered rt admin operations w₀ t p w)
    (h₀ : w₀.Sound) (name : AgentName) :
    Lifecycle operations admin.provisioner t p w name w₀ where
  suspension := suspensionLasts h h₀
  deletion := deletionLasts h h₀
  erasure := erasureLasts h h₀
  read := readsOwn h
  provision := provisionLasts h h₀

end

/-! ### Provisioning a suspended agent -/

/-- An administrator with the default settings. -/
def operator : Administrator where
  provisioner := { adminToken := "" }

/-- The agent of `identity/manifests/agent-infra-001.yaml`. -/
def infraAgent : AgentName := ⟨"agent-infra-001", agentInfra001.metadata.pattern⟩

/-- The agent has a client. -/
def staffed : Realm where
  vault _ := none
  clients := Function.update (fun _ ↦ none) infraAgent.1 (some ⟨"c1", true, "MIIBIj"⟩)
  issued := [("c1", infraAgent)]

private theorem clients_staffed : staffed.clients =
    Function.update (fun _ ↦ none) infraAgent.1 (some ⟨"c1", true, "MIIBIj"⟩) := rfl

/-- The realm with one agent is sound. -/
theorem staffed_sound : staffed.Sound := by
  constructor
  · intro clientId client hc
    rw [clients_staffed, Function.update_apply] at hc
    split at hc
    · next he =>
      cases hc
      rw [he]
      exact List.mem_singleton_self _
    · cases hc
  · intro id a b ha hb
    cases List.mem_singleton.mp ha
    cases List.mem_singleton.mp hb
    rfl

/-- The agent is suspended, and provisioned again by someone else. -/
def suspendAndProvision : Bool → Operation
  | true => .suspendClient infraAgent
  | false => .provision "identity/manifests/agent-infra-001.yaml"

/-- The token of the administrator. -/
def adminGrant : Except String Answer := .ok ⟨200, .ok (.obj [("access_token", .str "admin")])⟩

/-- The calls of the suspension. -/
def suspensionCalls : List AdminEvent := [
  ⟨.token operator.provisioner.adminTokenUrl "admin" "admin", adminGrant⟩,
  ⟨.getClients operator.provisioner.clientsUrl "admin" infraAgent,
    .ok ⟨200, .ok (.arr [.obj [("id", .str "c1")]])⟩⟩,
  ⟨.putClient (operator.provisioner.clientUrl "c1") "admin" IdentityProvisioner.disable, .ok 204⟩]

/-- The calls of the provisioning; the client exists. -/
def provisionCalls (pair : KeyPair) : List AdminEvent := [
  ⟨.token operator.provisioner.adminTokenUrl "admin" "admin", adminGrant⟩,
  ⟨.provisioning (.loadManifest "identity/manifests/agent-infra-001.yaml"), .ok infraManifest⟩,
  ⟨.provisioning .generateRsaKeypair, pair⟩,
  ⟨.provisioning (.put (operator.provisioner.keypairUrl infraAgent)
    operator.provisioner.vaultToken (keypairBody pair)), .ok 200⟩,
  ⟨.provisioning (.post operator.provisioner.clientsUrl "admin"
    (clientPayload infraAgent pair.publicPem)), .ok 409⟩,
  ⟨.provisioning .clock, (0 : Nat)⟩]

private theorem suspension_steps (rt : Runtime) :
    Prog.Steps (operator.program rt (suspendAndProvision true)) suspensionCalls
      (.done (.ok .unit)) :=
  .call _ (.call _ (.call _ (.refl _)))

private theorem provision_steps (rt : Runtime) (pair : KeyPair) :
    ∃ record, record.state = .active ∧
      Prog.Steps (operator.program rt (suspendAndProvision false)) (provisionCalls pair)
        (.done (.ok (.record record))) :=
  ⟨_, rfl, .call _ (.call _ (.call _ (.call _ (.call _ (.call _ (.refl _))))))⟩

/-- The agent with its client out of service. -/
def benched : Realm := staffed.change infraAgent (some ⟨"c1", false, "MIIBIj"⟩)

private theorem suspension_served :
    Reach.Serves (adminWorld operator.provisioner Bool) true staffed suspensionCalls benched := by
  have hc : staffed.clients infraAgent = some ⟨"c1", true, "MIIBIj"⟩ := by
    rw [clients_staffed, Function.update_self]
  refine .cons (.idle trivial) (.cons (.idle ?_) (.cons (.changed hc rfl _) (.nil _)))
  intro answer ha _
  cases ha
  refine ⟨_, rfl, ?_⟩
  rw [hc]
  exact ⟨_, rfl, rfl⟩

private theorem provision_served (pair : KeyPair) :
    Reach.Serves (adminWorld operator.provisioner Bool) false benched (provisionCalls pair)
      (benched.store (operator.provisioner.keypairUrl infraAgent) (some pair)) := by
  refine .cons (.idle trivial) (.cons (.idle trivial) (.cons (.idle trivial)
    (.cons (.stored rfl _) (.cons (.idle ⟨?_, ?_⟩) (.cons (.idle trivial) (.nil _))))))
  · rintro ⟨status, he, hs⟩
    cases he
    exact absurd hs (by decide)
  · intro _ clientId key hj
    cases hj
    rw [Realm.clients_store, benched, Realm.clients_change, Function.update_self]
    exact Option.some_ne_none _

/-- A suspended agent that is provisioned again is recorded as active, with its client out of
service. -/
theorem identity_lifecycle_suspended :
    ∃ rt t p w record, Administered rt operator suspendAndProvision staffed t p w ∧
      p true = .done (.ok .unit) ∧ p false = .done (.ok (.record record)) ∧
      record.state = .active ∧ w.clients infraAgent = some ⟨"c1", false, "MIIBIj"⟩ ∧
      Lifecycle suspendAndProvision operator.provisioner t p w infraAgent staffed := by
  let rt : Runtime := ⟨fun _ ↦ true, fun _ ↦ ""⟩
  obtain ⟨record, hr, hs⟩ := provision_steps rt ⟨"private", "public"⟩
  have h₀ : Administered rt operator suspendAndProvision staffed [] _ staffed := .start
  have h₁ := h₀.serve true (suspension_steps rt) suspension_served
  have h₂ := h₁.serve false
    (by rwa [Function.update_of_ne Bool.false_ne_true]) (provision_served _)
  refine ⟨rt, _, _, _, record, h₂, ?_, Function.update_self .., hr, ?_,
    identity_lifecycle h₂ staffed_sound infraAgent⟩
  · rw [Function.update_of_ne Bool.true_eq_false_eq_False, Function.update_self]
  · rw [Realm.clients_store, benched, Realm.clients_change, Function.update_self]

end NhiSentinel.Identity
