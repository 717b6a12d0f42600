import NhiSentinel.Approval.Points

/-!
# Listings among other calls

Any number of clients enqueue, resolve, read and list requests on one server, command by command
in any order. A listing has every request that waits throughout it, each once, and none whose
resolution had ended when it began; what it takes from the pending set has expired.
-/

namespace NhiSentinel.Approval
open NhiSentinel.Base

/-! ### Clients on one server -/

section
variable {ι : Type}

private theorem eq_call_of_bind {C α β : Type} {R : C → Type} {p : Prog C R α} {f : α → β} {c : C}
    {k : R c → Prog C R β} (h : (p.bind fun a ↦ .done (f a)) = .call c k) :
    ∃ k', p = .call c k' ∧ k = fun r ↦ (k' r).bind fun a ↦ .done (f a) := by
  cases p with
  | done a => cases h
  | call c' k' =>
    cases h
    exact ⟨k', rfl, rfl⟩

/-- A client that makes one call, and ends with its outcome. -/
def Call.client (codec : Codec) (c : Call) : Prog QueueCall QueueCall.Reply Entry :=
  (c.method codec ()).bind fun out ↦ .done ⟨c, out.1⟩

/-- The clients where they stand. -/
def calling (codec : Codec) (calls : ι → Call) :
    Reach.Control ι QueueCall QueueCall.Reply Entry where
  Point i := (calls i).Point
  start i := (calls i).start
  program i φ := ((calls i).program codec φ).bind fun out ↦ .done ⟨calls i, out.1⟩
  Moves i := (calls i).Moves codec
  step i _ _ _ h r := by
    obtain ⟨k', hk, rfl⟩ := eq_call_of_bind h
    obtain ⟨φ', hφ, hm⟩ := Call.step hk r
    exact ⟨φ', by rw [← hφ], hm⟩

/-! ### What a history tells -/

/-- The identifiers that were given out, and to whom. -/
def issued : List (ι × QueueEvent) → List (ι × String) := List.filterMap fun
  | (i, ⟨.uuid4, id⟩) => some (i, id)
  | _ => none

/-- An identifier was added to the pending set. -/
def Announced (t : List (ι × QueueEvent)) (id : String) : Prop :=
  ∃ e ∈ t, e.2.1 = .redis (.sadd pendingSet id)

/-- A resolution has taken its request from the pending set. -/
def Ended (calls : ι → Call) (t : List (ι × QueueEvent)) (id : String) : Prop :=
  ∃ e ∈ t, e.2.1 = .redis (.srem pendingSet id) ∧
    ∃ resolution, calls e.1 = .resolve resolution ∧ resolution.requestId = id

/-- The history had come so far when the client had not begun. -/
def Precedes (i : ι) (u t : List (ι × QueueEvent)) : Prop := u <+: t ∧ ∀ e ∈ u, e.1 ≠ i

/-- No resolution of a request begins before its identifier is known. -/
def Informed (calls : ι → Call) (t : List (ι × QueueEvent)) : Prop :=
  ∀ id, Announced t id → ∀ u e, u ++ [e] <+: t →
    ∀ resolution, calls e.1 = .resolve resolution → resolution.requestId = id → Announced u id

/-- A request comes from an enqueuing client: it is the JSON form of what was made, as it was or as
a client resolved it. -/
def Origin (codec : Codec) (calls : ι → Call) (t : List (ι × QueueEvent)) (r : ApprovalRequest) :
    Prop :=
  ∃ i s n r₀, calls i = .enqueue s ∧ (i, r.requestId) ∈ issued t ∧
    (s.request r.requestId n).jsonForm codec = some r₀ ∧
    (s.context.isJson = true → r₀ = s.request r.requestId n) ∧
    (r = r₀ ∨ ∃ j resolution m, calls j = .resolve resolution ∧
      resolution.requestId = r.requestId ∧ r = r₀.resolved resolution m)

section
variable {codec : Codec} {calls : ι → Call} {t u : List (ι × QueueEvent)} {e : ι × QueueEvent}
  {id : String} {r : ApprovalRequest} {i : ι}

/-- The identifiers issued in two traces, one after the other. -/
@[simp] theorem issued_append (t u : List (ι × QueueEvent)) :
    issued (t ++ u) = issued t ++ issued u := List.filterMap_append

private theorem announced_concat : Announced (t ++ [e]) id ↔
    Announced t id ∨ e.2.1 = .redis (.sadd pendingSet id) := by
  simp [Announced, or_and_right, exists_or]

private theorem ended_concat : Ended calls (t ++ [e]) id ↔
    Ended calls t id ∨ e.2.1 = .redis (.srem pendingSet id) ∧
      ∃ resolution, calls e.1 = .resolve resolution ∧ resolution.requestId = id := by
  simp [Ended, or_and_right, exists_or]

/-- What was announced stays announced. -/
theorem Announced.mono (h : Announced u id) (hp : u <+: t) : Announced t id := by
  obtain ⟨e, he, hs⟩ := h
  exact ⟨e, hp.subset he, hs⟩

/-- Where a request comes from is not changed by more events. -/
theorem Origin.append (h : Origin codec calls t r) (u : List (ι × QueueEvent)) :
    Origin codec calls (t ++ u) r := by
  obtain ⟨i, s, n, r₀, hi, hm, hf, hr⟩ := h
  refine ⟨i, s, n, r₀, hi, ?_, hf, hr⟩
  rw [issued_append]
  exact List.mem_append_left _ hm

/-- A history that a client has begun, or is about to, precedes it no more. -/
theorem Precedes.of_concat (h : Precedes i u (t ++ [e])) (he : e.1 = i ∨ ∃ d ∈ t, d.1 = i) :
    Precedes i u t := by
  refine ⟨?_, h.2⟩
  rcases List.prefix_concat_iff.mp h.1 with rfl | hp
  · rcases he with he | ⟨d, hd, hi⟩
    · exact absurd he (h.2 e (List.mem_append_right _ (List.mem_singleton_self _)))
    · exact absurd hi (h.2 d (List.mem_append_left _ hd))
  · exact hp

/-- The callers were informed before the last event as well. -/
theorem Informed.of_concat (h : Informed calls (t ++ [e])) : Informed calls t := by
  intro id ha u d hu resolution hd hid
  exact h id (ha.mono (List.prefix_append _ _)) u d (hu.trans (List.prefix_append _ _))
    resolution hd hid

/-- Whoever has ended a resolution was told of the request. -/
theorem Informed.announced (h : Informed calls (t ++ [e])) (ha : Announced (t ++ [e]) id)
    (hd : Ended calls t id) : Announced t id := by
  obtain ⟨d, hm, -, resolution, hd, hid⟩ := hd
  obtain ⟨u, v, rfl⟩ := List.append_of_mem hm
  have hp : u ++ [d] <+: u ++ d :: v ++ [e] := ⟨v ++ [e], by simp⟩
  exact (h id ha u d hp resolution hd hid).mono (List.prefix_append _ _)

end

/-! ### What the server holds -/

/-- The record that was last written of each request, and the pending set. -/
structure Contents where
  record : String → Option ApprovalRequest
  pending : List String

/-- The record of a request is written. -/
def Contents.write (L : Contents) (r : ApprovalRequest) : Contents :=
  { L with record := Function.update L.record r.requestId (some r) }

private theorem Contents.record_write_self (L : Contents) (r : ApprovalRequest) :
    (L.write r).record r.requestId = some r := Function.update_self ..

private theorem Contents.record_write_of_ne (L : Contents) {r : ApprovalRequest} {id : String}
    (h : id ≠ r.requestId) : (L.write r).record id = L.record id := Function.update_of_ne h ..

/-- An entry has the JSON form of a request. -/
def Bears (codec : Codec) (e : Redis.Entry) (r : ApprovalRequest) : Prop :=
  r.WellFormed ∧ ∃ json expires, r.dumpJson codec = some json ∧ e = ⟨.text json, expires⟩

/-- The server holds the contents. -/
structure Shows (codec : Codec) (w : Server) (L : Contents) : Prop where
  absent : L.record pendingName = none
  record : ∀ id, id ≠ pendingName → Option.Rel (Bears codec) (w.store (key id)) (L.record id)
  pending : Redis.HoldsSet w.store pendingSet L.pending

/-- The request waits for its resolution. -/
def Waits (w : Server) (L : Contents) (id : String) (r : ApprovalRequest) : Prop :=
  L.record id = some r ∧ r.status = .pending ∧ w.store.live w.now (key id) ≠ none

section
variable {codec : Codec} {w w' : Server} {L : Contents} {id text : String} {r : ApprovalRequest}

/-- No request has the name of the pending set. -/
theorem Shows.ne_pendingName (h : Shows codec w L) (hr : L.record id ≠ none) :
    id ≠ pendingName := by
  rintro rfl
  exact hr h.absent

/-- What is read under a key is the request that was written last. -/
theorem Shows.record_of_live (hc : codec.Lawful) (h : Shows codec w L) (hid : id ≠ pendingName)
    {e : Redis.Entry} (hl : w.store.live w.now (key id) = some e) :
    ∃ r json expires, L.record id = some r ∧ r.WellFormed ∧ e = ⟨.text json, expires⟩ ∧
      ApprovalRequest.validateJson? codec json = some r := by
  have hk := h.record id hid
  rw [Redis.eq_of_live hl] at hk
  generalize hr : L.record id = o at hk
  cases hk with
  | some hb =>
    obtain ⟨hw, json, expires, hj, rfl⟩ := hb
    exact ⟨_, json, expires, rfl, hw, rfl, ApprovalRequest.validateJson?_dumpJson hc hw hj⟩

/-- The pending set is no request. -/
theorem Shows.ne_of_live (h : Shows codec w L) {expires : Option Nat}
    (hl : w.store.live w.now (key id) = some ⟨.text text, expires⟩) : id ≠ pendingName := by
  rintro rfl
  have hk : key pendingName = pendingSet := by decide
  rw [hk] at hl
  rcases h.pending with ⟨hn, -⟩ | hn
  · cases hn.symm.trans (Redis.eq_of_live hl)
  · cases hn.symm.trans (Redis.eq_of_live hl)

/-- A stored request is the one that was written last. -/
theorem Shows.waits_of_stored (hc : codec.Lawful) (h : Shows codec w L) (hs : Stored codec w id r)
    (hp : r.status = .pending) : Waits w L id r := by
  obtain ⟨text, ⟨expires, hl⟩, hv⟩ := hs
  obtain ⟨r', json, expires', hr, -, he, hv'⟩ := h.record_of_live hc (h.ne_of_live hl) hl
  cases he
  cases hv.symm.trans hv'
  exact ⟨hr, hp, by rw [hl]; exact Option.some_ne_none _⟩

/-- A server with the same store. -/
theorem Shows.congr (h : Shows codec w L) (hst : w'.store = w.store) : Shows codec w' L where
  absent := h.absent
  record := by
    rw [hst]
    exact h.record
  pending := h.pending.congr (by rw [hst])

/-- A record is written. -/
theorem Shows.setex (h : Shows codec w L) (hw : r.WellFormed) {json : String}
    (hj : r.dumpJson codec = some json) {seconds : Int} (hs : 0 < seconds) :
    Shows codec
      { w with store := (Redis.setex w.store w.now (key r.requestId) seconds json).2 }
      (L.write r) where
  absent := (L.record_write_of_ne (Approval.ne_pendingName hw.requestId).symm).trans h.absent
  record id hid := by
    by_cases he : id = r.requestId
    · subst he
      rw [L.record_write_self]
      show Option.Rel _ ((Redis.setex _ _ _ _ _).2 _) _
      rw [Redis.setex_self hs]
      exact .some ⟨hw, json, _, hj, rfl⟩
    · rw [L.record_write_of_ne he]
      show Option.Rel _ ((Redis.setex _ _ _ _ _).2 _) _
      rw [Redis.setex_of_ne fun hk ↦ he (key_injective hk)]
      exact h.record id hid
  pending := h.pending.congr
    (Redis.setex_of_ne (Ne.symm (key_ne_pendingSet (Approval.ne_pendingName hw.requestId))))

/-- A command on the pending set. -/
theorem Shows.of_pending (h : Shows codec w L) {st : Redis.Store} {xs : List String}
    (hs : ∀ k, k ≠ pendingSet → st k = w.store k) (hx : Redis.HoldsSet st pendingSet xs) :
    Shows codec { w with store := st } { L with pending := xs } where
  absent := h.absent
  record id hid := by
    have hr := h.record id hid
    rwa [← hs _ (key_ne_pendingSet hid)] at hr
  pending := hx

end

/-! ### What holds of the clients -/

/-- The identifiers that were given out are different, as are the next ones. -/
structure Supply (t : List (ι × QueueEvent)) (w : Server) (count : Nat) : Prop where
  unique : ∀ i j id, (i, id) ∈ issued t → (j, id) ∈ issued t → i = j
  canonical : ∀ n < count, canonicalUuid (w.ids n) = true
  distinct : ∀ m < count, ∀ n < count, w.ids m = w.ids n → m = n
  unused : ∀ n < count, ∀ i, (i, w.ids n) ∉ issued t

/-- What the contents of the server have to do with the history. -/
structure Coherent (codec : Codec) (calls : ι → Call) (t : List (ι × QueueEvent)) (w : Server)
    (L : Contents) : Prop where
  now : w.now ≤ Python.datetimeMax
  shows : Shows codec w L
  nodup : L.pending.Nodup
  announced : ∀ id ∈ L.pending, Announced t id
  recorded : ∀ id, Announced t id → L.record id ≠ none
  origin : ∀ id r, L.record id = some r → r.requestId = id ∧ Origin codec calls t r
  indexed : ∀ id r, Announced t id → Waits w L id r → id ∈ L.pending
  ended : Informed calls t → ∀ id, Ended calls t id → id ∉ L.pending

/-- What a step of a client can do to the contents. -/
structure Evolves (i : ι) (t : List (ι × QueueEvent)) (w : Server) (L : Contents) (e : QueueEvent)
    (w' : Server) (L' : Contents) : Prop where
  fresh : ∀ id, L.record id = none → L'.record id ≠ none → (i, id) ∈ issued t
  kept : ∀ id, L.record id ≠ none → L'.record id ≠ none
  settled : ∀ id r, L.record id ≠ none → L'.record id = some r → r.status = .pending →
    L.record id = some r
  live : ∀ id r, L.record id ≠ none → Waits w' L' id r → w.store.live w.now (key id) ≠ none
  announces : ∀ id, e.1 = .redis (.sadd pendingSet id) → (i, id) ∈ issued t

/-- What an enqueuing client knows where it stands. -/
def Enqueuing.At (codec : Codec) (s : Submission) (i : ι) (t : List (ι × QueueEvent))
    (L : Contents) : Enqueuing → Prop
  | .clocked now => now ≤ Python.datetimeMax
  | .writing r json => (∃ r', StoredAs codec r r' json) ∧ (∃ n, r = s.request r.requestId n) ∧
      (i, r.requestId) ∈ issued t ∧ L.record r.requestId = none
  | .written r => (i, r.requestId) ∈ issued t ∧ L.record r.requestId ≠ none ∧
      ¬ Announced t r.requestId
  | _ => True

/-- What a resolving client knows where it stands. -/
def Resolving.At (codec : Codec) (calls : ι → Call) (resolution : ApprovalResolution)
    (t : List (ι × QueueEvent)) (L : Contents) : Resolving → Prop
  | .checked r => r.WellFormed ∧ r.requestId = resolution.requestId ∧ r.status = .pending ∧
      Origin codec calls t r ∧ L.record resolution.requestId ≠ none
  | .writing r json => r.WellFormed ∧ r.dumpJson codec = some json ∧
      r.requestId = resolution.requestId ∧ r.status ≠ .pending ∧ Origin codec calls t r ∧
        L.record resolution.requestId ≠ none
  | .written _ => ∃ r, L.record resolution.requestId = some r ∧ r.status ≠ .pending
  | _ => True

/-- What a listing client has found and has left. -/
structure Tracks (codec : Codec) (calls : ι → Call) (i : ι) (t : List (ι × QueueEvent))
    (w : Server) (L : Contents) (found : List ApprovalRequest) (ids : List String) : Prop where
  begun : ∃ e ∈ t, e.1 = i
  nodup : (found.map ApprovalRequest.requestId ++ ids).Nodup
  origin : ∀ r ∈ found, Origin codec calls t r
  announced : ∀ id ∈ ids, Announced t id
  current : Informed calls t → ∀ id ∈ found.map ApprovalRequest.requestId ++ ids, ∀ u,
    Precedes i u t → ¬ Ended calls u id
  complete : ∀ u, Precedes i u t → ∀ id r, Announced u id → Waits w L id r → r ∈ found ∨ id ∈ ids

/-- What a listing client knows where it stands. -/
def Listing.At (codec : Codec) (calls : ι → Call) (i : ι) (t : List (ι × QueueEvent)) (w : Server)
    (L : Contents) : Listing → Prop
  | .start => True
  | .reading found id ids => Tracks codec calls i t w L found (id :: ids)
  | .removing found id ids => Tracks codec calls i t w L found ids ∧ Announced t id ∧
      ∀ r, ¬ Waits w L id r
  | .ended (.ok found) => Tracks codec calls i t w L found []
  | .ended (.error _) => False

/-- What a client knows where it stands. -/
def Call.At (codec : Codec) (calls : ι → Call) (i : ι) (t : List (ι × QueueEvent)) (w : Server)
    (L : Contents) : (c : Call) → c.Point → Prop
  | enqueue s => Enqueuing.At codec s i t L
  | resolve resolution => Resolving.At codec calls resolution t L
  | get _ => fun _ ↦ True
  | listPending => Listing.At codec calls i t w L

section
variable {codec : Codec} {calls : ι → Call} {i j : ι} {t : List (ι × QueueEvent)} {w w' : Server}
  {L L' : Contents} {e : QueueEvent} {count : Nat}

/-- A request that waits after an event and was there before it waited before it. -/
theorem Evolves.waits (h : Evolves i t w L e w' L') {id : String} {r : ApprovalRequest}
    (hr : L.record id ≠ none) (hw : Waits w' L' id r) : Waits w L id r :=
  ⟨h.settled id r hr hw.1 hw.2.1, hw.2.1, h.live id r hr hw⟩

/-- A listing client that has begun stays on track. -/
theorem Tracks.evolve {found : List ApprovalRequest} {ids : List String}
    (h : Tracks codec calls j t w L found ids) (hg : Coherent codec calls t w L)
    (he : Evolves i t w L e w' L') : Tracks codec calls j (t ++ [(i, e)]) w' L' found ids where
  begun := by
    obtain ⟨d, hd, hj⟩ := h.begun
    exact ⟨d, List.mem_append_left _ hd, hj⟩
  nodup := h.nodup
  origin r hr := (h.origin r hr).append _
  announced id hid := (h.announced id hid).mono (List.prefix_append _ _)
  current hi id hid u hu := h.current hi.of_concat id hid u (hu.of_concat (.inr h.begun))
  complete u hu id r ha hw := by
    have hu' := hu.of_concat (.inr h.begun)
    exact h.complete u hu' id r ha (he.waits (hg.recorded id (ha.mono hu'.1)) hw)

/-- The other clients know what they knew. -/
theorem Call.At.evolve {c : Call} {φ : c.Point} (h : c.At codec calls j t w L φ) (hj : j ≠ i)
    (hg : Coherent codec calls t w L)
    (hs : ∀ i j id, (i, id) ∈ issued t → (j, id) ∈ issued t → i = j)
    (he : Evolves i t w L e w' L') : c.At codec calls j (t ++ [(i, e)]) w' L' φ := by
  have hissued {id : String} (hm : (j, id) ∈ issued t) : (j, id) ∈ issued (t ++ [(i, e)]) := by
    rw [issued_append]
    exact List.mem_append_left _ hm
  cases c with
  | enqueue s =>
    cases φ with
    | writing r json =>
      obtain ⟨hst, hn, hm, hr⟩ := h
      refine ⟨hst, hn, hissued hm, ?_⟩
      by_contra hne
      exact hj (hs _ _ _ hm (he.fresh _ hr hne))
    | written r =>
      obtain ⟨hm, hr, ha⟩ := h
      refine ⟨hissued hm, he.kept _ hr, fun ha' ↦ ?_⟩
      rcases announced_concat.mp ha' with ha' | ha'
      · exact ha ha'
      · exact hj (hs _ _ _ hm (he.announces _ ha'))
    | _ => exact h
  | resolve resolution =>
    cases φ with
    | checked r =>
      obtain ⟨hw, hid, hp, ho, hr⟩ := h
      exact ⟨hw, hid, hp, ho.append _, he.kept _ hr⟩
    | writing r json =>
      obtain ⟨hw, hd, hid, hp, ho, hr⟩ := h
      exact ⟨hw, hd, hid, hp, ho.append _, he.kept _ hr⟩
    | written r =>
      obtain ⟨r', hr, hp⟩ := h
      have hne : L.record resolution.requestId ≠ none := by
        rw [hr]
        exact Option.some_ne_none _
      obtain ⟨r'', hr''⟩ := Option.ne_none_iff_exists'.mp (he.kept _ hne)
      refine ⟨r'', hr'', fun hp' ↦ hp ?_⟩
      cases hr.symm.trans (he.settled _ _ hne hr'' hp')
      exact hp'
    | _ => trivial
  | get requestId => trivial
  | listPending =>
    cases φ with
    | start => trivial
    | reading found id ids => exact Tracks.evolve h hg he
    | removing found id ids =>
      obtain ⟨ht, ha, hn⟩ := h
      refine ⟨ht.evolve hg he, ha.mono (List.prefix_append _ _), fun r hw ↦ ?_⟩
      exact hn r (he.waits (hg.recorded id ha) hw)
    | ended out =>
      cases out with
      | ok found => exact Tracks.evolve h hg he
      | error x => exact h

/-! ### Steps -/

/-- A server gives out at most one identifier at a time. -/
theorem Supply.step (h : Supply t w (count + 1)) (i : ι) (ha : w.answer e.1 = (e.2, w')) :
    Supply (t ++ [(i, e)]) w' count := by
  have quiet (hids : w'.ids = w.ids) (hi : issued [(i, e)] = []) :
      Supply (t ++ [(i, e)]) w' count := by
    have ht : issued (t ++ [(i, e)]) = issued t := by rw [issued_append, hi, List.append_nil]
    refine ⟨?_, fun n hn ↦ ?_, fun m hm n hn ↦ ?_, fun n hn j ↦ ?_⟩
    · rw [ht]
      exact h.unique
    · rw [hids]
      exact h.canonical n (Nat.lt_succ_of_lt hn)
    · rw [hids]
      exact h.distinct m (Nat.lt_succ_of_lt hm) n (Nat.lt_succ_of_lt hn)
    · rw [ht, hids]
      exact h.unused n (Nat.lt_succ_of_lt hn) j
  obtain ⟨c, reply⟩ := e
  cases c with
  | redis c =>
    obtain ⟨-, rfl⟩ := Prod.mk.inj ha
    exact quiet rfl rfl
  | clock =>
    obtain ⟨-, rfl⟩ := Prod.mk.inj ha
    exact quiet rfl rfl
  | uuid4 =>
    obtain ⟨rfl, rfl⟩ := Prod.mk.inj ha
    have hmem {j : ι} {id : String} : (j, id) ∈ issued (t ++ [(i, ⟨.uuid4, w.ids 0⟩)]) ↔
        (j, id) ∈ issued t ∨ j = i ∧ id = w.ids 0 := by
      rw [issued_append, List.mem_append]
      exact or_congr_right (List.mem_singleton.trans Prod.mk_inj)
    refine ⟨fun j k id hj hk ↦ ?_, fun n hn ↦ h.canonical _ (Nat.succ_lt_succ hn),
      fun m hm n hn he ↦ ?_, fun n hn j hj ↦ ?_⟩
    · rcases hmem.mp hj with hj | ⟨hji, rfl⟩
      · rcases hmem.mp hk with hk | ⟨-, rfl⟩
        · exact h.unique j k id hj hk
        · exact absurd hj (h.unused 0 (Nat.succ_pos _) j)
      · rcases hmem.mp hk with hk | ⟨hki, -⟩
        · exact absurd hk (h.unused 0 (Nat.succ_pos _) k)
        · exact hji.trans hki.symm
    · exact Nat.succ_injective (h.distinct _ (Nat.succ_lt_succ hm) _ (Nat.succ_lt_succ hn) he)
    · rcases hmem.mp hj with hj | ⟨-, he⟩
      · exact h.unused _ (Nat.succ_lt_succ hn) j hj
      · exact Nat.succ_ne_zero n
          (h.distinct _ (Nat.succ_lt_succ hn) 0 (Nat.succ_pos _) he)

/-- A step that is no command on the pending set. -/
theorem Coherent.evolve (h : Coherent codec calls t w L) (he : Evolves i t w L e w' L')
    (hn : w'.now = w.now) (hs : Shows codec w' L') (hp : L'.pending = L.pending)
    (ho : ∀ id r, L'.record id = some r → r.requestId = id ∧ Origin codec calls (t ++ [(i, e)]) r)
    (hadd : ∀ id, e.1 ≠ .redis (.sadd pendingSet id))
    (hrem : ∀ id, e.1 ≠ .redis (.srem pendingSet id)) :
    Coherent codec calls (t ++ [(i, e)]) w' L' := by
  have hann {id : String} (ha : Announced (t ++ [(i, e)]) id) : Announced t id :=
    (announced_concat.mp ha).resolve_right (hadd id)
  refine ⟨hn ▸ h.now, hs, hp ▸ h.nodup, fun id hid ↦ ?_, fun id ha ↦ ?_, ho, fun id r ha hw ↦ ?_,
    fun hi id hd ↦ ?_⟩
  · exact (h.announced id (hp ▸ hid)).mono (List.prefix_append _ _)
  · exact he.kept id (h.recorded id (hann ha))
  · rw [hp]
    exact h.indexed id r (hann ha) (he.waits (h.recorded id (hann ha)) hw)
  · rw [hp]
    refine h.ended hi.of_concat id ((ended_concat.mp hd).resolve_right fun hx ↦ ?_)
    exact hrem id hx.1

/-- A step that leaves the store as it is. -/
theorem Coherent.quiet (h : Coherent codec calls t w L) (i : ι) (e : QueueEvent) (w' : Server)
    (hst : w'.store = w.store) (hn : w'.now = w.now)
    (hadd : ∀ id, e.1 ≠ .redis (.sadd pendingSet id))
    (hrem : ∀ id, e.1 ≠ .redis (.srem pendingSet id)) :
    Evolves i t w L e w' L ∧ Coherent codec calls (t ++ [(i, e)]) w' L := by
  have he : Evolves i t w L e w' L := by
    refine ⟨fun id hn hne ↦ absurd hn hne, fun _ ↦ id, fun _ _ _ hr _ ↦ hr, fun id r _ hw ↦ ?_,
      fun id ha ↦ absurd ha (hadd id)⟩
    have hl := hw.2.2
    rwa [hst, hn] at hl
  refine ⟨he, h.evolve he hn (h.shows.congr hst) rfl (fun id r hr ↦ ?_) hadd hrem⟩
  exact ⟨(h.origin id r hr).1, (h.origin id r hr).2.append _⟩

/-- A record is written: that of a new request, or a resolved one. -/
theorem Coherent.write (h : Coherent codec calls t w L) (i : ι) {r : ApprovalRequest}
    {json : String} (hw : r.WellFormed) (hj : r.dumpJson codec = some json)
    (ho : Origin codec calls t r) (seconds : Int) (hs : 0 < seconds)
    (hnew : L.record r.requestId = none ∧ (i, r.requestId) ∈ issued t ∨
      L.record r.requestId ≠ none ∧ r.status ≠ .pending)
    (reply : Except String Unit) :
    Evolves i t w L ⟨.redis (.setex (key r.requestId) seconds json), reply⟩
        { w with store := (Redis.setex w.store w.now (key r.requestId) seconds json).2 }
        (L.write r) ∧
      Coherent codec calls
        (t ++ [(i, ⟨.redis (.setex (key r.requestId) seconds json), reply⟩)])
        { w with store := (Redis.setex w.store w.now (key r.requestId) seconds json).2 }
        (L.write r) := by
  -- a request that was there before, and waits after the write, is another one
  have hne {id : String} {r' : ApprovalRequest} (hr : L.record id ≠ none)
      (hr' : (L.write r).record id = some r') (hp : r'.status = .pending) : id ≠ r.requestId := by
    rintro rfl
    cases (L.record_write_self r).symm.trans hr'
    rcases hnew with ⟨hn, -⟩ | ⟨-, hn⟩
    · exact hr hn
    · exact hn hp
  have he : Evolves i t w L ⟨.redis (.setex (key r.requestId) seconds json), reply⟩
      { w with store := (Redis.setex w.store w.now (key r.requestId) seconds json).2 }
      (L.write r) := by
    refine ⟨fun id hn hne ↦ ?_, fun id hr ↦ ?_, fun id r' hr hr' hp ↦ ?_, fun id r' hr hw' ↦ ?_,
      nofun⟩
    · by_cases hid : id = r.requestId
      · subst hid
        rcases hnew with ⟨-, hi⟩ | ⟨hx, -⟩
        · exact hi
        · exact absurd hn hx
      · exact absurd ((L.record_write_of_ne hid).trans hn) hne
    · by_cases hid : id = r.requestId
      · subst hid
        rw [L.record_write_self]
        exact Option.some_ne_none _
      · rwa [L.record_write_of_ne hid]
    · rwa [← L.record_write_of_ne (hne hr hr' hp)]
    · have hid := hne hr hw'.1 hw'.2.1
      rw [← Redis.live_congr (Redis.setex_of_ne fun hk ↦ hid (key_injective hk))]
      exact hw'.2.2
  refine ⟨he, h.evolve he rfl (h.shows.setex hw hj hs) rfl (fun id r' hr' ↦ ?_) nofun nofun⟩
  by_cases hid : id = r.requestId
  · subst hid
    cases (L.record_write_self r).symm.trans hr'
    exact ⟨rfl, ho.append _⟩
  · rw [L.record_write_of_ne hid] at hr'
    exact ⟨(h.origin id r' hr').1, (h.origin id r' hr').2.append _⟩

/-- An identifier whose request is there is made known. -/
theorem Coherent.announce (h : Coherent codec calls t w L) {i : ι} {id : String}
    (hi : (i, id) ∈ issued t) (hr : L.record id ≠ none) (ha : ¬ Announced t id)
    (reply : Except String Nat) :
    ∃ L', L'.record = L.record ∧
      Evolves i t w L ⟨.redis (.sadd pendingSet id), reply⟩
        { w with store := (Redis.sadd w.store w.now pendingSet id).2 } L' ∧
      Coherent codec calls (t ++ [(i, ⟨.redis (.sadd pendingSet id), reply⟩)])
        { w with store := (Redis.sadd w.store w.now pendingSet id).2 } L' := by
  have hann {id' : String} : Announced (t ++ [(i, ⟨.redis (.sadd pendingSet id), reply⟩)]) id' ↔
      Announced t id' ∨ id = id' := by
    rw [announced_concat]
    simp
  have hend {id' : String} (hd : Ended calls
      (t ++ [(i, ⟨.redis (.sadd pendingSet id), reply⟩)]) id') : Ended calls t id' :=
    (ended_concat.mp hd).resolve_right nofun
  have hm : id ∉ L.pending := fun hm ↦ ha (h.announced id hm)
  have hlive {id' : String} (hne : L.record id' ≠ none) :
      (Redis.sadd w.store w.now pendingSet id).2.live w.now (key id') =
        w.store.live w.now (key id') :=
    Redis.live_congr (Redis.sadd_of_ne (key_ne_pendingSet (h.shows.ne_pendingName hne)))
  have he : Evolves i t w L ⟨.redis (.sadd pendingSet id), reply⟩
      { w with store := (Redis.sadd w.store w.now pendingSet id).2 }
      { L with pending := L.pending ++ [id] } := by
    refine ⟨fun _ hn hne ↦ absurd hn hne, fun _ hr ↦ hr, fun _ _ _ hr _ ↦ hr,
      fun id' r hne hw ↦ ?_, ?_⟩
    · rw [← hlive hne]
      exact hw.2.2
    · rintro id' ⟨⟩
      exact hi
  refine ⟨{ L with pending := L.pending ++ [id] }, rfl, he, h.now,
    h.shows.of_pending (fun k hk ↦ Redis.sadd_of_ne hk) ?_, ?_, fun id' hid ↦ ?_,
    fun id' hid ↦ ?_, fun id' r hrec ↦ ?_, fun id' r hid hw ↦ ?_,
    fun hi id' hd hid ↦ ?_⟩
  · have hs := h.shows.pending.sadd_if w.now id
    rwa [if_neg hm] at hs
  · exact List.nodup_append_comm.mp (List.nodup_cons.mpr ⟨hm, h.nodup⟩)
  · rcases List.mem_append.mp hid with hid | hid
    · exact hann.mpr (.inl (h.announced id' hid))
    · exact hann.mpr (.inr (List.mem_singleton.mp hid).symm)
  · rcases hann.mp hid with hid | rfl
    · exact h.recorded id' hid
    · exact hr
  · exact ⟨(h.origin id' r hrec).1, (h.origin id' r hrec).2.append _⟩
  · rcases hann.mp hid with hid | rfl
    · exact List.mem_append_left _ (h.indexed id' r hid (he.waits (h.recorded id' hid) hw))
    · exact List.mem_append_right _ (List.mem_singleton_self _)
  · rcases List.mem_append.mp hid with hid | hid
    · exact h.ended hi.of_concat id' (hend hd) hid
    · cases List.mem_singleton.mp hid
      exact ha (hi.announced (hann.mpr (.inr rfl)) (hend hd))

/-- An identifier whose request does not wait is taken from the pending set. -/
theorem Coherent.drop (h : Coherent codec calls t w L) (i : ι) {id : String}
    (hn : ∀ r, ¬ Waits w L id r) (reply : Except String Nat) :
    ∃ L', L'.record = L.record ∧
      Evolves i t w L ⟨.redis (.srem pendingSet id), reply⟩
        { w with store := (Redis.srem w.store w.now pendingSet id).2 } L' ∧
      Coherent codec calls (t ++ [(i, ⟨.redis (.srem pendingSet id), reply⟩)])
        { w with store := (Redis.srem w.store w.now pendingSet id).2 } L' := by
  have hann {id' : String}
      (ha : Announced (t ++ [(i, ⟨.redis (.srem pendingSet id), reply⟩)]) id') :
      Announced t id' := (announced_concat.mp ha).resolve_right nofun
  have hmem {id' : String} : id' ∈ L.pending.filter (· ≠ id) ↔ id' ∈ L.pending ∧ id' ≠ id := by
    rw [List.mem_filter, decide_eq_true_eq]
  have hlive {id' : String} (hne : L.record id' ≠ none) :
      (Redis.srem w.store w.now pendingSet id).2.live w.now (key id') =
        w.store.live w.now (key id') :=
    Redis.live_congr (Redis.srem_of_ne (key_ne_pendingSet (h.shows.ne_pendingName hne)))
  have he : Evolves i t w L ⟨.redis (.srem pendingSet id), reply⟩
      { w with store := (Redis.srem w.store w.now pendingSet id).2 }
      { L with pending := L.pending.filter (· ≠ id) } := by
    refine ⟨fun _ hn hne ↦ absurd hn hne, fun _ hr ↦ hr, fun _ _ _ hr _ ↦ hr, fun id' r hne hw ↦ ?_,
      nofun⟩
    rw [← hlive hne]
    exact hw.2.2
  refine ⟨{ L with pending := L.pending.filter (· ≠ id) }, rfl, he, h.now,
    h.shows.of_pending (fun k hk ↦ Redis.srem_of_ne hk) (h.shows.pending.srem_filter w.now id),
    h.nodup.filter _, fun id' hid ↦ ?_, fun id' hid ↦ ?_,
    fun id' r hrec ↦ ?_, fun id' r hid hw ↦ ?_, fun hi id' hd hid ↦ ?_⟩
  · exact (h.announced id' (hmem.mp hid).1).mono (List.prefix_append _ _)
  · exact h.recorded id' (hann hid)
  · exact ⟨(h.origin id' r hrec).1, (h.origin id' r hrec).2.append _⟩
  · have hw' := he.waits (h.recorded id' (hann hid)) hw
    refine hmem.mpr ⟨h.indexed id' r (hann hid) hw', ?_⟩
    rintro rfl
    exact hn r hw'
  · obtain ⟨hid, hne⟩ := hmem.mp hid
    rcases ended_concat.mp hd with hd | ⟨hd, -⟩
    · exact h.ended hi.of_concat id' hd hid
    · cases hd
      exact hne rfl

/-- What is read of a request is its record. -/
theorem Coherent.read (hc : codec.Lawful) (h : Coherent codec calls t w L) {id text : String}
    {r : ApprovalRequest} (ha : w.answer (.redis (.get (key id))) = (.ok (some text), w'))
    (hv : ApprovalRequest.validateJson? codec text = some r) :
    w' = w ∧ L.record id = some r ∧ r.WellFormed := by
  obtain ⟨rfl, expires, hl⟩ := live_of_answer_get ha
  obtain ⟨r', json, x, hr, hw, he, hv'⟩ := h.shows.record_of_live hc (h.shows.ne_of_live hl) hl
  cases he
  cases hv.symm.trans hv'
  exact ⟨rfl, hr, hw⟩

/-- A step of `enqueue`. -/
theorem Coherent.enqueuing (hc : codec.Lawful) (h : Coherent codec calls t w L)
    (hs : Supply t w (count + 1)) {s : Submission} (hi : calls i = .enqueue s) {φ φ' : Enqueuing}
    (hm : Enqueuing.Moves codec s φ e φ') (ha : w.answer e.1 = (e.2, w'))
    (hat : Enqueuing.At codec s i t L φ) :
    ∃ L', Evolves i t w L e w' L' ∧ Coherent codec calls (t ++ [(i, e)]) w' L' ∧
      Enqueuing.At codec s i (t ++ [(i, e)]) L' φ' := by
  cases hm with
  | clock now =>
    cases ha
    obtain ⟨he, hg⟩ := h.quiet i ⟨.clock, w.now⟩ w rfl rfl nofun nofun
    exact ⟨L, he, hg, h.now⟩
  | @uuid now requestId json hx hj =>
    cases ha
    obtain ⟨he, hg⟩ := h.quiet i ⟨.uuid4, w.ids 0⟩ w.issued rfl rfl nofun nofun
    refine ⟨L, he, hg, ?_, ⟨now, rfl⟩, ?_, ?_⟩
    · exact s.exists_storedAs hc (hs.canonical 0 (Nat.succ_pos _)) hat hx.2 hj
    · rw [issued_append]
      exact List.mem_append_right _ (List.mem_singleton_self _)
    · by_contra hne
      obtain ⟨r, hr⟩ := Option.ne_none_iff_exists'.mp hne
      obtain ⟨hid, j, -, -, -, -, hj, -⟩ := h.origin _ r hr
      rw [hid] at hj
      exact hs.unused 0 (Nat.succ_pos _) j hj
  | @refused now requestId x hx =>
    cases ha
    obtain ⟨he, hg⟩ := h.quiet i ⟨.uuid4, w.ids 0⟩ w.issued rfl rfl nofun nofun
    exact ⟨L, he, hg, trivial⟩
  | write r json =>
    obtain ⟨⟨r', hst⟩, ⟨n, hn⟩, hm, hr⟩ := hat
    have hpos : 0 < s.ttlSeconds := by
      by_contra hneg
      obtain ⟨cls, hcls⟩ := answer_setex_refused w r.requestId json hneg
      cases hcls.symm.trans ha
    obtain ⟨-, rfl⟩ := Prod.mk.inj ha
    have hf : (s.request r.requestId n).jsonForm codec = some r' := hn ▸ hst.form
    rw [← hst.requestId] at hm hr hf ⊢
    obtain ⟨he, hg⟩ := h.write i hst.wellFormed hst.text
      ⟨i, s, n, r', hi, hm, hf, Submission.eq_of_jsonForm hc hf, .inl rfl⟩ _ hpos (.inl ⟨hr, hm⟩)
      (.ok ())
    refine ⟨_, he, hg, ?_, ?_, fun hann ↦ ?_⟩
    · rw [issued_append, ← hst.requestId]
      exact List.mem_append_left _ hm
    · rw [← hst.requestId, L.record_write_self]
      exact Option.some_ne_none _
    · rw [← hst.requestId] at hann
      exact h.recorded _ ((announced_concat.mp hann).resolve_right nofun) hr
  | writeFailed r json cls x =>
    have hneg : ¬ 0 < s.ttlSeconds := by
      intro hpos
      rw [answer_setex hpos] at ha
      cases ha
    obtain ⟨cls', hcls⟩ := answer_setex_refused w r.requestId json hneg
    cases hcls.symm.trans ha
    obtain ⟨he, hg⟩ := h.quiet i ⟨.redis (.setex (key r.requestId) s.ttlSeconds json),
      .error cls⟩ w rfl rfl nofun nofun
    exact ⟨L, he, hg, trivial⟩
  | add r n =>
    obtain ⟨hm, hr, hann⟩ := hat
    obtain ⟨-, rfl⟩ := Prod.mk.inj ha
    obtain ⟨L', -, he, hg⟩ := h.announce hm hr hann (.ok n)
    exact ⟨L', he, hg, trivial⟩
  | addFailed r cls x =>
    obtain ⟨hm, hr, hann⟩ := hat
    obtain ⟨-, rfl⟩ := Prod.mk.inj ha
    obtain ⟨L', -, he, hg⟩ := h.announce hm hr hann (.error cls)
    exact ⟨L', he, hg, trivial⟩

/-- A step of `resolve`. -/
theorem Coherent.resolving (hc : codec.Lawful) (h : Coherent codec calls t w L)
    {resolution : ApprovalResolution} (hi : calls i = .resolve resolution) {φ φ' : Resolving}
    (hm : Resolving.Moves codec resolution φ e φ') (ha : w.answer e.1 = (e.2, w'))
    (hat : Resolving.At codec calls resolution t L φ) :
    ∃ L', Evolves i t w L e w' L' ∧ Coherent codec calls (t ++ [(i, e)]) w' L' ∧
      Resolving.At codec calls resolution (t ++ [(i, e)]) L' φ' := by
  have gone {r : ApprovalRequest} (hr : L.record resolution.requestId = some r)
      (hp : r.status ≠ .pending) (r' : ApprovalRequest) : ¬ Waits w L resolution.requestId r' := by
    intro hw
    cases hr.symm.trans hw.1
    exact hp hw.2.1
  cases hm with
  | @refused reply x hn =>
    obtain ⟨-, rfl⟩ := Prod.mk.inj ha
    obtain ⟨he, hg⟩ := h.quiet i ⟨.redis (.get (key resolution.requestId)), reply⟩
      { w with store := w.store } rfl rfl nofun nofun
    exact ⟨L, he, hg, trivial⟩
  | @read text r hacc =>
    obtain ⟨rfl, hr, hw⟩ := h.read hc ha hacc.decoded
    obtain ⟨hid, ho⟩ := h.origin _ r hr
    obtain ⟨he, hg⟩ := h.quiet i ⟨.redis (.get (key resolution.requestId)), .ok (some text)⟩
      w' rfl rfl nofun nofun
    refine ⟨L, he, hg, hw, hid, hacc.pending, ho.append _, ?_⟩
    rw [hr]
    exact Option.some_ne_none _
  | @clock r now json hj =>
    cases ha
    obtain ⟨hw, hid, hp, ho, hr⟩ := hat
    obtain ⟨he, hg⟩ := h.quiet i ⟨.clock, w.now⟩ w rfl rfl nofun nofun
    refine ⟨L, he, hg, hw.resolved resolution h.now, hj, hid,
      r.not_isPending_resolved resolution w.now, ?_, hr⟩
    obtain ⟨j, s, n, r₀, hj, hm, hf, hjson, hor | ⟨k, resolution', m, -, -, hor⟩⟩ :=
      ho.append [(i, ⟨.clock, w.now⟩)]
    · exact ⟨j, s, n, r₀, hj, hm, hf, hjson, .inr ⟨i, resolution, w.now, hi, hid.symm,
        congrArg (·.resolved resolution w.now) hor⟩⟩
    · rw [hor] at hp
      exact absurd hp (ApprovalRequest.not_isPending_resolved _ _ _)
  | @unwritable r now x hj =>
    cases ha
    obtain ⟨he, hg⟩ := h.quiet i ⟨.clock, w.now⟩ w rfl rfl nofun nofun
    exact ⟨L, he, hg, trivial⟩
  | write r json =>
    obtain ⟨hw, hj, hid, hp, ho, hr⟩ := hat
    obtain ⟨-, rfl⟩ := Prod.mk.inj ha
    rw [← hid] at hr
    obtain ⟨he, hg⟩ := h.write i hw hj ho 3600 (by decide) (.inr ⟨hr, hp⟩) (.ok ())
    rw [hid] at he hg
    refine ⟨_, he, hg, r, ?_, hp⟩
    rw [← hid, L.record_write_self]
  | writeFailed r json cls x =>
    rw [answer_setex (by decide)] at ha
    cases ha
  | remove r n =>
    obtain ⟨r', hr, hp⟩ := hat
    obtain ⟨-, rfl⟩ := Prod.mk.inj ha
    obtain ⟨L', -, he, hg⟩ := h.drop i (gone hr hp) (.ok n)
    exact ⟨L', he, hg, trivial⟩
  | removeFailed r cls x =>
    obtain ⟨r', hr, hp⟩ := hat
    obtain ⟨-, rfl⟩ := Prod.mk.inj ha
    obtain ⟨L', -, he, hg⟩ := h.drop i (gone hr hp) (.error cls)
    exact ⟨L', he, hg, trivial⟩

private theorem Listing.at_next {found : List ApprovalRequest} {ids : List String} :
    Listing.At codec calls i t w L (next found ids) ↔ Tracks codec calls i t w L found ids := by
  cases ids <;> rfl

/-- What a listing client takes from the pending set is all that it will have to read. -/
theorem Coherent.begin (h : Coherent codec calls t w L) (he : ∃ d ∈ t ++ [(i, e)], d.1 = i)
    (hg : Coherent codec calls (t ++ [(i, e)]) w L) :
    Tracks codec calls i (t ++ [(i, e)]) w L [] L.pending where
  begun := he
  nodup := h.nodup
  origin _ hr := by cases hr
  announced id hid := hg.announced id hid
  current hi id hid u hu hd := by
    have hu' := hu.of_concat (.inl rfl)
    obtain ⟨d, hm, hd⟩ := hd
    exact h.ended hi.of_concat id ⟨d, hu'.1.subset hm, hd⟩ hid
  complete u hu id r ha hw := .inr (h.indexed id r (ha.mono (hu.of_concat (.inl rfl)).1) hw)

/-- A request is found. -/
theorem Tracks.found {found : List ApprovalRequest} {id : String} {ids : List String}
    {r : ApprovalRequest} (h : Tracks codec calls i t w L found (id :: ids))
    (hr : L.record id = some r) (hid : r.requestId = id) (ho : Origin codec calls t r) :
    Tracks codec calls i t w L (found ++ [r]) ids := by
  have hl : (found ++ [r]).map ApprovalRequest.requestId ++ ids =
      found.map ApprovalRequest.requestId ++ id :: ids := by
    rw [List.map_append, List.append_assoc, List.map_singleton, hid, List.singleton_append]
  refine ⟨h.begun, hl ▸ h.nodup, fun r' hr' ↦ ?_, fun id' hid' ↦ ?_, hl ▸ h.current,
    fun u hu id' r' ha hw ↦ ?_⟩
  · rcases List.mem_append.mp hr' with hr' | hr'
    · exact h.origin r' hr'
    · exact List.mem_singleton.mp hr' ▸ ho
  · exact h.announced id' (List.mem_cons_of_mem _ hid')
  · rcases h.complete u hu id' r' ha hw with hf | hf
    · exact .inl (List.mem_append_left _ hf)
    · rcases List.mem_cons.mp hf with rfl | hf
      · cases hr.symm.trans hw.1
        exact .inl (List.mem_append_right _ (List.mem_singleton_self _))
      · exact .inr hf

/-- A request that does not wait is passed over. -/
theorem Tracks.pass {found : List ApprovalRequest} {id : String} {ids : List String}
    (h : Tracks codec calls i t w L found (id :: ids)) (hn : ∀ r, ¬ Waits w L id r) :
    Tracks codec calls i t w L found ids := by
  have hsub : (found.map ApprovalRequest.requestId ++ ids).Sublist
      (found.map ApprovalRequest.requestId ++ id :: ids) :=
    (List.sublist_cons_self _ _).append_left _
  refine ⟨h.begun, h.nodup.sublist hsub, h.origin,
    fun id' hid' ↦ h.announced id' (List.mem_cons_of_mem _ hid'),
    fun hi id' hid' ↦ h.current hi id' (hsub.subset hid'), fun u hu id' r ha hw ↦ ?_⟩
  rcases h.complete u hu id' r ha hw with hf | hf
  · exact .inl hf
  · rcases List.mem_cons.mp hf with rfl | hf
    · exact absurd hw (hn r)
    · exact .inr hf

/-- What is read under the key of a request that was announced. -/
theorem Coherent.get_announced (hc : codec.Lawful) (h : Coherent codec calls t w L) {id : String}
    (hann : Announced t id) :
    w.answer (.redis (.get (key id))) = (.ok none, w) ∧ (∀ r, ¬ Waits w L id r) ∨
      ∃ text r, w.answer (.redis (.get (key id))) = (.ok (some text), w) ∧
        L.record id = some r ∧ ApprovalRequest.validateJson? codec text = some r := by
  have hid := h.shows.ne_pendingName (h.recorded id hann)
  cases hl : w.store.live w.now (key id) with
  | none =>
    refine .inl ⟨?_, fun r hw ↦ hw.2.2 hl⟩
    rw [Server.answer, Redis.exec, Redis.get, hl]
    rfl
  | some x =>
    obtain ⟨r, json, expires, hr, -, rfl, hv⟩ := h.shows.record_of_live hc hid hl
    exact .inr ⟨json, r, answer_get hl, hr, hv⟩

/-- The pending set is listed. -/
theorem Coherent.answer_smembers (h : Coherent codec calls t w L) :
    w.answer (.redis (.smembers pendingSet)) = (.ok L.pending, w) := by
  rw [Server.answer, Redis.exec, h.shows.pending.members]
  rfl

/-- A name is taken out of the pending set. -/
theorem Coherent.answer_srem (h : Coherent codec calls t w L) (id : String) :
    ∃ n w', w.answer (.redis (.srem pendingSet id)) = (.ok n, w') := by
  obtain ⟨n, ys, hs, -⟩ := h.shows.pending.srem w.now id
  rw [Server.answer, Redis.exec, hs]
  exact ⟨_, _, rfl⟩

/-- A step of `list_pending`. -/
theorem Coherent.listing (hc : codec.Lawful) (h : Coherent codec calls t w L) (i : ι)
    {φ φ' : Listing} (hm : Listing.Moves codec φ e φ')
    (ha : w.answer e.1 = (e.2, w')) (hat : Listing.At codec calls i t w L φ) :
    ∃ L', Evolves i t w L e w' L' ∧ Coherent codec calls (t ++ [(i, e)]) w' L' ∧
      Listing.At codec calls i (t ++ [(i, e)]) w' L' φ' := by
  have hmem : ∃ d ∈ t ++ [(i, e)], d.1 = i :=
    ⟨_, List.mem_append_right _ (List.mem_singleton_self _), rfl⟩
  cases hm with
  | members ids =>
    cases h.answer_smembers.symm.trans ha
    obtain ⟨he, hg⟩ := h.quiet i ⟨.redis (.smembers pendingSet), .ok L.pending⟩ w rfl rfl nofun
      nofun
    exact ⟨L, he, hg, Listing.at_next.mpr (h.begin hmem hg)⟩
  | membersFailed cls =>
    cases h.answer_smembers.symm.trans ha
  | @found found id text ids r hv =>
    obtain ⟨rfl, hr, -⟩ := h.read hc ha hv
    obtain ⟨he, hg⟩ := h.quiet i ⟨.redis (.get (key id)), .ok (some text)⟩ w' rfl rfl nofun nofun
    obtain ⟨hid, ho⟩ := h.origin id r hr
    exact ⟨L, he, hg, Listing.at_next.mpr ((Tracks.evolve hat h he).found hr hid (ho.append _))⟩
  | @missing found id ids raw hraw =>
    have ht : Tracks codec calls i t w L found (id :: ids) := hat
    rcases h.get_announced hc (ht.announced id List.mem_cons_self) with
      ⟨hg, hn⟩ | ⟨text, r, hg, -, hv⟩
    · cases hg.symm.trans ha
      obtain ⟨he, hg⟩ := h.quiet i ⟨.redis (.get (key id)), .ok none⟩ w rfl rfl nofun nofun
      have ht' := ht.evolve h he
      exact ⟨L, he, hg, ht'.pass hn, ht'.announced id List.mem_cons_self, hn⟩
    · cases hg.symm.trans ha
      exact absurd hraw (ApprovalRequest.ne_empty_of_validateJson? hv)
  | @unreadable found id ids reply x hx =>
    have ht : Tracks codec calls i t w L found (id :: ids) := hat
    rcases h.get_announced hc (ht.announced id List.mem_cons_self) with
      ⟨hg, -⟩ | ⟨text, r, hg, -, hv⟩
    · cases hg.symm.trans ha
      obtain ⟨text, hr, -⟩ := hx none rfl
      cases hr
    · cases hg.symm.trans ha
      obtain ⟨text', hr, hv'⟩ := hx (some text) rfl
      cases hr
      cases hv.symm.trans hv'
  | @remove found id ids n =>
    obtain ⟨ht, hann, hn⟩ := hat
    obtain ⟨-, rfl⟩ := Prod.mk.inj ha
    obtain ⟨L', -, he, hg⟩ := h.drop i hn (.ok n)
    exact ⟨L', he, hg, Listing.at_next.mpr (ht.evolve h he)⟩
  | @removeFailed found id ids cls =>
    obtain ⟨n, w₁, hs⟩ := h.answer_srem id
    cases hs.symm.trans ha

/-- A step of any client. -/
theorem Coherent.step (hc : codec.Lawful) (h : Coherent codec calls t w L)
    (hs : Supply t w (count + 1)) {c : Call} (hi : calls i = c) {φ φ' : c.Point}
    (hm : c.Moves codec φ e φ') (ha : w.answer e.1 = (e.2, w'))
    (hat : c.At codec calls i t w L φ) :
    ∃ L', Evolves i t w L e w' L' ∧ Coherent codec calls (t ++ [(i, e)]) w' L' ∧
      c.At codec calls i (t ++ [(i, e)]) w' L' φ' := by
  cases c with
  | enqueue s => exact h.enqueuing hc hs hi hm ha hat
  | resolve resolution => exact h.resolving hc hi hm ha hat
  | listPending => exact h.listing hc i hm ha hat
  | get requestId =>
    obtain ⟨-, he, -⟩ := hm
    obtain ⟨q, reply⟩ := e
    cases he
    obtain ⟨-, rfl⟩ := Prod.mk.inj ha
    obtain ⟨he, hg⟩ := h.quiet i ⟨.redis (.get (key requestId)), reply⟩
      { w with store := w.store } rfl rfl nofun nofun
    exact ⟨L, he, hg, trivial⟩

/-! ### Time -/

/-- Whoever waits later waits now. -/
theorem Waits.of_tick {now : Nat} (hn : w.now ≤ now) {id : String} {r : ApprovalRequest}
    (h : Waits { w with now := now } L id r) : Waits w L id r :=
  ⟨h.1, h.2.1, fun hl ↦ h.2.2 (Redis.live_eq_none_mono hl hn)⟩

/-- Time keeps the store coherent with the ledger. -/
theorem Coherent.tick (h : Coherent codec calls t w L) {now : Nat} (hn : w.now ≤ now)
    (hd : now ≤ Python.datetimeMax) : Coherent codec calls t { w with now := now } L :=
  ⟨hd, h.shows.congr rfl, h.nodup, h.announced, h.recorded, h.origin,
    fun id r ha hw ↦ h.indexed id r ha (hw.of_tick hn), h.ended⟩

/-- Time keeps a listing on track. -/
theorem Tracks.tick {found : List ApprovalRequest} {ids : List String}
    (h : Tracks codec calls i t w L found ids) {now : Nat} (hn : w.now ≤ now) :
    Tracks codec calls i t { w with now := now } L found ids :=
  ⟨h.begun, h.nodup, h.origin, h.announced, h.current,
    fun u hu id r ha hw ↦ h.complete u hu id r ha (hw.of_tick hn)⟩

/-- Time keeps a call at its point. -/
theorem Call.At.tick {c : Call} {φ : c.Point} (h : c.At codec calls i t w L φ) {now : Nat}
    (hn : w.now ≤ now) : c.At codec calls i t { w with now := now } L φ := by
  cases c with
  | enqueue s | resolve resolution | get requestId => exact h
  | listPending =>
    cases φ with
    | start => trivial
    | reading found id ids => exact Tracks.tick h hn
    | removing found id ids => exact ⟨h.1.tick hn, h.2.1, fun r hw ↦ h.2.2 r (hw.of_tick hn)⟩
    | ended out =>
      cases out with
      | ok found => exact Tracks.tick h hn
      | error x => exact h

end

/-! ### Every interleaving -/

/-- What a listing promises: every request once, none that was not enqueued, every one that was
known before it began and waits at its end, and none whose resolution had ended when it began,
unless the resolution began before the request was known. -/
structure Lists (codec : Codec) (calls : ι → Call) (i : ι) (t : List (ι × QueueEvent)) (w : Server)
    (rs : List ApprovalRequest) : Prop where
  nodup : (rs.map ApprovalRequest.requestId).Nodup
  origin : ∀ r ∈ rs, Origin codec calls t r
  complete : ∀ u, Precedes i u t → ∀ id r, Announced u id → Stored codec w id r →
    r.status = .pending → r ∈ rs
  current : Informed calls t → ∀ r ∈ rs, ∀ u, Precedes i u t → ¬ Ended calls u r.requestId

section
variable [DecidableEq ι] {codec : Codec} {calls : ι → Call} {t : List (ι × QueueEvent)}
  {w₀ w : Server} {p : ι → Prog QueueCall QueueCall.Reply Entry}

/-- The clients stand somewhere, and know what they know there. -/
def Stand (codec : Codec) (calls : ι → Call) (φ : ∀ i, (calls i).Point)
    (t : List (ι × QueueEvent)) (w : Server) (count : Nat) : Prop :=
  ∃ L, Coherent codec calls t w L ∧ Supply t w count ∧ ∀ i, (calls i).At codec calls i t w L (φ i)

omit [DecidableEq ι] in
private theorem Call.at_start (c : Call) {i : ι} {L : Contents} :
    c.At codec calls i t w L c.start := by
  cases c <;> trivial

omit [DecidableEq ι] in
/-- Nothing has happened at the beginning. -/
theorem Server.Fresh.stand {count : Nat} (h : w.Fresh count) (codec : Codec) (calls : ι → Call) :
    Stand codec calls (fun i ↦ (calls i).start) [] w count := by
  refine ⟨⟨fun _ ↦ none, []⟩, ⟨h.now, ⟨rfl, fun id _ ↦ ?_, .inl ⟨?_, rfl⟩⟩, .nil, nofun, ?_,
    nofun, ?_, ?_⟩, ⟨fun i j id hi ↦ ?_, h.canonical, h.distinct, fun n _ i hi ↦ ?_⟩, fun i ↦ ?_⟩
  · rw [h.store id]
    exact .none
  · exact h.store pendingName
  · rintro id ⟨e, he, -⟩
    cases he
  · rintro id r ⟨e, he, -⟩
    cases he
  · rintro - id ⟨e, he, -⟩
    cases he
  · cases hi
  · cases hi
  · exact (calls i).at_start

/-- A step of one client. -/
theorem Stand.step (hc : codec.Lawful) {φ : ∀ i, (calls i).Point} {count : Nat}
    (h : Stand codec calls φ t w (count + 1)) {i : ι} {e : QueueEvent} {φ' : (calls i).Point}
    (hm : (calls i).Moves codec (φ i) e φ') {w' : Server} (ha : w.answer e.1 = (e.2, w')) :
    Stand codec calls (Function.update φ i φ') (t ++ [(i, e)]) w' count := by
  obtain ⟨L, hg, hs, hat⟩ := h
  obtain ⟨L', he, hg', hat'⟩ := hg.step hc hs rfl hm ha (hat i)
  refine ⟨L', hg', hs.step i ha, fun j ↦ ?_⟩
  by_cases hj : j = i
  · subst hj
    rw [Function.update_self]
    exact hat'
  · rw [Function.update_of_ne hj]
    exact (hat j).evolve hj hg hs.unique he

/-- The invariant of every interleaving. -/
theorem exists_stand (hc : codec.Lawful) (h₀ : w₀.Fresh t.length)
    (h : Reach (concurrent ι) (fun i ↦ (calls i).client codec) w₀ t p w) :
    ∃ φ, (∀ i, p i = (calling codec calls).program i (φ i)) ∧ Stand codec calls φ t w 0 := by
  have hinv := h.controlled (calling codec calls)
    (I := fun φ t w ↦ ∀ count, w₀.Fresh (count + t.length) → Stand codec calls φ t w count)
    ?_ ?_ ?_ ?_
  · obtain ⟨φ, hφ, hI⟩ := hinv
    exact ⟨φ, hφ, hI 0 (by rwa [Nat.zero_add])⟩
  · intro i
    show (calls i).client codec = ((calls i).program codec (calls i).start).bind _
    rw [Call.client]
    cases calls i <;> rfl
  · intro count hf
    exact Server.Fresh.stand hf codec calls
  · intro φ t w w' i e φ' hφ hm ha count hf
    refine (hφ (count + 1) ?_).step hc hm ha
    rw [List.length_append, List.length_singleton] at hf
    rwa [Nat.add_right_comm]
  · rintro φ t w w' hφ ⟨now, hn, hd, rfl⟩ count hf
    obtain ⟨L, hg, ⟨hu, hcan, hdist, hun⟩, hat⟩ := hφ count hf
    exact ⟨L, hg.tick hn hd, ⟨hu, hcan, hdist, hun⟩, fun i ↦ (hat i).tick hn⟩

omit [DecidableEq ι] in
private theorem tracks_of_done {c : Call} (hc : c = .listPending) {i : ι} {L : Contents}
    {φ : c.Point} (hat : c.At codec calls i t w L φ) {entry : Entry}
    (hd : ((c.program codec φ).bind fun out ↦ .done ⟨c, out.1⟩) = .done entry) :
    ∃ rs, entry = ⟨.listPending, .ok rs⟩ ∧ Tracks codec calls i t w L rs [] := by
  subst hc
  cases φ with
  | start | reading | removing => cases hd
  | ended out =>
    cases out with
    | ok rs =>
      cases hd
      exact ⟨rs, rfl, hat⟩
    | error x => exact absurd hat id

end
end

/-! ### A listing after an enqueued request -/

private theorem answer_redis {w : Server} {c : Redis.Command} {x : c.Reply} {st : Redis.Store}
    (h : Redis.exec w.now c w.store = (.ok x, st)) :
    w.answer (.redis c) = (.ok x, { w with store := st }) := by
  rw [Server.answer, h]
  rfl

/-- A client moves on; the others stay where they are. -/
theorem exists_calling {ι : Type} [DecidableEq ι] {codec : Codec} (calls : ι → Call)
    {t : List (ι × QueueEvent)} {w₀ w w' : Server}
    {p₀ p : ι → Prog QueueCall QueueCall.Reply Entry}
    (h : Reach (concurrent ι) p₀ w₀ t p w) (i : ι) (φ φ' : (calls i).Point) {e : QueueEvent}
    (hp : p i = (calling codec calls).program i φ)
    (hk : ∃ k, (calls i).program codec φ = .call e.1 k ∧ k e.2 = (calls i).program codec φ')
    (ha : w.answer e.1 = (e.2, w')) :
    ∃ p', Reach (concurrent ι) p₀ w₀ (t ++ [(i, e)]) p' w' ∧
      p' i = (calling codec calls).program i φ' ∧ ∀ j, j ≠ i → p' j = p j := by
  refine h.exists_call ?_ ha
  obtain ⟨k, hk, hk'⟩ := hk
  refine ⟨fun r ↦ (k r).bind fun out ↦ .done ⟨calls i, out.1⟩, hp.trans ?_, ?_⟩
  · show ((calls i).program codec φ).bind _ = _
    rw [hk]
    rfl
  · exact congrArg (·.bind fun out ↦ Prog.done (⟨calls i, out.1⟩ : Entry)) hk'

private theorem Listing.exists_found {codec : Codec} {id text : String} {r : ApprovalRequest}
    (hv : ApprovalRequest.validateJson? codec text = some r) :
    ∃ k, (next [] [id]).program codec = .call (.redis (.get (key id))) k ∧
      k (.ok (some text)) = (ended (.ok [r])).program codec := by
  refine ⟨_, rfl, ?_⟩
  generalize hreply : (.ok (some text) : Except String (Option String)) = reply
  obtain ⟨φ, hk, hm⟩ := step (φ := next [] [id]) rfl reply
  rw [hk]
  cases hm with
  | found h =>
    cases hreply
    cases hv.symm.trans h
    rfl
  | missing h =>
    cases hreply
    exact absurd h (ApprovalRequest.ne_empty_of_validateJson? hv)
  | unreadable e h =>
    obtain ⟨text', ht, h⟩ := h _ hreply.symm
    cases ht
    cases hv.symm.trans h

/-- A client enqueues a request, another lists what is pending. -/
def enqueueAndList : Bool → Call
  | false => .enqueue submission
  | true => .listPending

/-- The request is listed after it was enqueued. -/
theorem exists_listing : ∃ t p w,
    Reach (concurrent Bool) (fun i ↦ (enqueueAndList i).client isoCodec) emptyServer t p w ∧
      t.length = 6 ∧ p true = .done ⟨.listPending, .ok [firstRequest]⟩ := by
  have hd : emptyServer.now ≤ Python.datetimeMax := by decide
  obtain ⟨json, hw, hj⟩ := firstRequest_stored
  have hdec := ApprovalRequest.validateJson?_dumpJson isoCodec_lawful hw hj
  have r₀ : Reach (concurrent Bool) (fun i ↦ (enqueueAndList i).client isoCodec) emptyServer [] _
    emptyServer := .start
  have hi₀ : (enqueueAndList false).client isoCodec =
    (calling isoCodec enqueueAndList).program false Enqueuing.start := rfl
  obtain ⟨p₁, r₁, hi₁, ho₁⟩ := exists_calling enqueueAndList r₀ false Enqueuing.start
    (Enqueuing.clocked emptyServer.now) hi₀
    ((Enqueuing.Moves.clock _).call nofun) rfl
  obtain ⟨p₂, r₂, hi₂, ho₂⟩ := exists_calling enqueueAndList r₁ false _
    (Enqueuing.writing firstRequest json) hi₁
    ((Enqueuing.Moves.uuid ⟨by decide, by decide⟩ hj).call nofun) rfl
  obtain ⟨p₃, r₃, hi₃, ho₃⟩ := exists_calling enqueueAndList r₂ false _
    (Enqueuing.written firstRequest) hi₂
    ((Enqueuing.Moves.write _ _).call nofun) (answer_setex (by decide))
  have hk : key firstId ≠ pendingSet := key_ne_pendingSet (ne_pendingName hw.requestId)
  let st := (Redis.setex emptyServer.store emptyServer.now (key firstId) 14400 json).2
  have hs : Redis.HoldsSet st pendingSet [] := .inl ⟨Redis.setex_of_ne (Ne.symm hk), rfl⟩
  obtain ⟨n, ys, hadd, -⟩ := hs.sadd emptyServer.now firstId
  obtain ⟨p₄, r₄, -, ho₄⟩ := exists_calling enqueueAndList r₃ false _
    (Enqueuing.ended (.ok firstRequest)) hi₃ ((Enqueuing.Moves.add _ n).call nofun)
    (answer_redis hadd)
  -- it is listed
  have hne : true ≠ false := nofun
  have hi : p₄ true = (calling isoCodec enqueueAndList).program true Listing.start :=
    (ho₄ _ hne).trans ((ho₃ _ hne).trans ((ho₂ _ hne).trans (ho₁ _ hne)))
  have hmem := (hs.sadd_if emptyServer.now firstId).members emptyServer.now
  have hlive : (Redis.sadd st emptyServer.now pendingSet firstId).2.live emptyServer.now
      (key firstId) = some ⟨.text json, some (emptyServer.now + 14400 * 1000000)⟩ := by
    rw [Redis.Store.live, Redis.sadd_of_ne hk]
    exact Redis.live_of_setex (by decide) (by decide)
  obtain ⟨p₅, r₅, hi₅, -⟩ := exists_calling (e := ⟨.redis (.smembers pendingSet), .ok [firstId]⟩)
    enqueueAndList r₄ true _ (Listing.next [] [firstId]) hi
    ⟨_, rfl, Listing.listFrom_eq [firstId]⟩ (answer_redis (congrArg (·, _) hmem))
  obtain ⟨p₆, r₆, hi₆, -⟩ := exists_calling
    (e := ⟨.redis (.get (key firstId)), .ok (some json)⟩) enqueueAndList r₅ true _
    (Listing.ended (.ok [firstRequest])) hi₅ (Listing.exists_found hdec) (answer_get hlive)
  exact ⟨_, p₆, _, r₆, rfl, hi₆⟩

end NhiSentinel.Approval
