import NhiSentinel.Approval.Concurrent

/-!
# Concurrent resolutions

`resolve` reads a request, checks that it is pending and writes it back in separate
commands. Resolutions that do not overlap between reading and writing resolve a request at
most once; two that do both return, and the second overwrites the first.
-/

namespace NhiSentinel.Approval
open NhiSentinel.Base

/-- A resolver that has read a request which it will resolve, and has not written it yet. -/
structure InProgress (codec : Codec) (resolution : ApprovalResolution) (es : List QueueEvent) :
    Prop where
  read : ∃ text r, ⟨.redis (.get (key resolution.requestId)), .ok (some text)⟩ ∈ es ∧
    Resolving.Accepts codec resolution text r
  unwritten : ∀ seconds json reply,
    ⟨.redis (.setex (key resolution.requestId) seconds json), reply⟩ ∉ es

section
variable {ι : Type} [DecidableEq ι]

/-- Whenever a resolver reads a request that it will resolve, no other is in progress on it. -/
def Exclusive (codec : Codec) (resolution : ι → ApprovalResolution) (t : List (ι × QueueEvent)) :
    Prop :=
  ∀ t₁ t₂ i text r,
    t = t₁ ++ (i, ⟨.redis (.get (key (resolution i).requestId)), .ok (some text)⟩) :: t₂ →
    Resolving.Accepts codec (resolution i) text r →
    ∀ j, (resolution j).requestId = (resolution i).requestId →
      ¬ InProgress codec (resolution j) (eventsOf j t₁)

/-- What is promised of concurrent resolutions: one of a request succeeds, and its verdict stays
as long as the record is there. -/
structure ResolvedOnce (codec : Codec) (resolution : ι → ApprovalResolution) (p : ι → QueueProg)
    (w : Server) : Prop where
  once : ∀ i j r r', (resolution i).requestId = (resolution j).requestId →
    p i = .done (.ok r, ()) → p j = .done (.ok r', ()) → i = j
  kept : ∀ i r, p i = .done (.ok r, ()) →
    ∀ r', Stored codec w (resolution i).requestId r' →
      r'.status = r.status ∧ r'.approverIdentity = r.approverIdentity

/-- Resolvers that exclude each other throughout a trace do so at its beginning. -/
theorem Exclusive.of_append {codec : Codec} {resolution : ι → ApprovalResolution}
    {t u : List (ι × QueueEvent)} (h : Exclusive codec resolution (t ++ u)) :
    Exclusive codec resolution t := by
  intro t₁ t₂ i text r ht
  apply h t₁ (t₂ ++ u) i text r
  rw [ht, List.append_assoc, List.cons_append]

/-- An event that reads no request which will be resolved is exclusive. -/
theorem Exclusive.concat {codec : Codec} {resolution : ι → ApprovalResolution}
    {t : List (ι × QueueEvent)} (h : Exclusive codec resolution t) (i : ι) {e : QueueEvent}
    (hn : ∀ text r, e = ⟨.redis (.get (key (resolution i).requestId)), .ok (some text)⟩ →
      ¬ Resolving.Accepts codec (resolution i) text r) :
    Exclusive codec resolution (t ++ [(i, e)]) := by
  intro t₁ t₂ k text r ht hacc
  rcases List.eq_nil_or_concat t₂ with rfl | ⟨t₂, y, rfl⟩
  · obtain ⟨-, he⟩ := List.append_inj' ht rfl
    cases List.singleton_inj.mp he
    exact absurd hacc (hn text r rfl)
  · rw [List.concat_eq_append, ← List.cons_append, ← List.append_assoc] at ht
    exact h t₁ t₂ k text r (List.append_inj' ht rfl).1 hacc

namespace Resolving

/-- Between reading a request and writing it. -/
def Busy : Resolving → Prop
  | checked _ | writing .. => True
  | _ => False

/-- After writing it. -/
def Wrote (r : ApprovalRequest) : Resolving → Prop
  | written r' | ended (.ok r') => r' = r
  | _ => False

/-- A resolver that has returned has written what it returned. -/
theorem wrote_of_program {codec : Codec} {resolution : ApprovalResolution} {φ : Resolving}
    {r : ApprovalRequest} (h : φ.program codec resolution = .done (.ok r, ())) : φ.Wrote r := by
  cases φ with
  | ended out =>
    cases out with
    | ok r' =>
      cases h
      rfl
    | error e => cases h
  | _ => cases h

/-- A record that is written with a verdict. -/
structure Verdict (codec : Codec) (r : ApprovalRequest) : Prop where
  wellFormed : r.WellFormed
  written : (r.dumpJson codec).isSome
  decided : r.status ≠ .pending

/-- What a resolver has done when it stands at a point. -/
def Local (codec : Codec) (resolution : ApprovalResolution) (es : List QueueEvent) :
    Resolving → Prop
  | start => ∀ seconds json reply,
    ⟨.redis (.setex (key resolution.requestId) seconds json), reply⟩ ∉ es
  | checked r => r.WellFormed ∧ InProgress codec resolution es
  | writing r json => r.dumpJson codec = some json ∧ Verdict codec r ∧
    InProgress codec resolution es
  | written r | ended (.ok r) => Verdict codec r
  | ended (.error _) => True

private theorem Local.inProgress {codec : Codec} {resolution : ApprovalResolution}
    {es : List QueueEvent} {φ : Resolving} (h : φ.Local codec resolution es) (hb : φ.Busy) :
    InProgress codec resolution es := by
  cases φ with
  | checked r => exact h.2
  | writing r json => exact h.2.2
  | _ => exact hb.elim

/-- What a resolver wrote is a verdict. -/
theorem Local.verdict {codec : Codec} {resolution : ApprovalResolution}
    {es : List QueueEvent} {φ : Resolving} (h : φ.Local codec resolution es) {r : ApprovalRequest}
    (hw : φ.Wrote r) : Verdict codec r := by
  cases φ with
  | written r' =>
    cases hw
    exact h
  | ended out =>
    cases out with
    | ok r' =>
      cases hw
      exact h
    | error e => exact hw.elim
  | _ => exact hw.elim

end Resolving

/-! ### One step -/

/-- What an entry holds of a request. -/
def Contains (codec : Codec) (e : Redis.Entry) (r : ApprovalRequest) : Prop :=
  ∃ json, r.dumpJson codec = some json ∧ e.data = .text json

/-- While resolvers do not overlap: at most one is between reading and writing a request; when
one has written, the record is its own and no other goes on. -/
structure Guarded (codec : Codec) (resolution : ι → ApprovalResolution) (φ : ι → Resolving)
    (t : List (ι × QueueEvent)) (w : Server) : Prop where
  now : w.now ≤ Python.datetimeMax
  readable : ∀ i e, w.store (key (resolution i).requestId) = some e →
    ∃ r : ApprovalRequest, r.WellFormed ∧ Contains codec e r
  points : ∀ i, (φ i).Local codec (resolution i) (eventsOf i t)
  single : ∀ i j, (resolution i).requestId = (resolution j).requestId →
    (φ i).Busy → (φ j).Busy → i = j
  alone : ∀ i j r, (resolution i).requestId = (resolution j).requestId → (φ i).Wrote r →
    ¬ (φ j).Busy ∧ ∀ r', (φ j).Wrote r' → i = j
  settled : ∀ i r, (φ i).Wrote r → ∀ e, w.store (key (resolution i).requestId) = some e →
    Contains codec e r

section
variable {codec : Codec} {resolution : ι → ApprovalResolution} {φ : ι → Resolving}
  {t : List (ι × QueueEvent)} {w w' : Server}

private theorem local_update (h : ∀ j, (φ j).Local codec (resolution j) (eventsOf j t)) (i : ι)
    (e : QueueEvent) {φ' : Resolving}
    (h' : φ'.Local codec (resolution i) (eventsOf i t ++ [e])) (j : ι) :
    (Function.update φ i φ' j).Local codec (resolution j) (eventsOf j (t ++ [(i, e)])) := by
  rw [eventsOf_append]
  by_cases hj : j = i
  · subst hj
    rw [Function.update_self, eventsOf_singleton_self]
    exact h'
  · rw [Function.update_of_ne hj, eventsOf_singleton_of_ne (Ne.symm hj), List.append_nil]
    exact h j

/-- A step that neither reads nor writes a record. -/
theorem Guarded.keep (h : Guarded codec resolution φ t w) (i : ι) (e : QueueEvent)
    {φ' : Resolving} (hnow : w'.now = w.now)
    (hstore : ∀ j, w'.store (key (resolution j).requestId) = w.store (key (resolution j).requestId))
    (hlocal : φ'.Local codec (resolution i) (eventsOf i t ++ [e]))
    (hbusy : φ'.Busy → (φ i).Busy) (hwrote : ∀ r, φ'.Wrote r → (φ i).Wrote r) :
    Guarded codec resolution (Function.update φ i φ') (t ++ [(i, e)]) w' := by
  have hb (j : ι) (hj : (Function.update φ i φ' j).Busy) : (φ j).Busy := by
    by_cases hi : j = i
    · subst hi
      rw [Function.update_self] at hj
      exact hbusy hj
    · rwa [Function.update_of_ne hi] at hj
  have hw (j : ι) (r : ApprovalRequest) (hj : (Function.update φ i φ' j).Wrote r) :
      (φ j).Wrote r := by
    by_cases hi : j = i
    · subst hi
      rw [Function.update_self] at hj
      exact hwrote r hj
    · rwa [Function.update_of_ne hi] at hj
  refine ⟨hnow ▸ h.now, fun j x hx ↦ h.readable j x (hstore j ▸ hx),
    local_update h.points i e hlocal, fun a b hab ha hb' ↦ h.single a b hab (hb a ha) (hb b hb'),
    fun a b r hab ha ↦ ?_, fun a r ha x hx ↦ h.settled a r (hw a r ha) x (hstore a ▸ hx)⟩
  have hal := h.alone a b r hab (hw a r ha)
  exact ⟨fun hbb ↦ hal.1 (hb b hbb), fun r' hr' ↦ hal.2 r' (hw b r' hr')⟩

/-- A resolver reads a request that it will resolve. -/
theorem Guarded.read (hc : codec.Lawful) (h : Guarded codec resolution φ t w) {i : ι}
    {text : String} {r : ApprovalRequest} (hi : φ i = .start)
    (ha : Resolving.Accepts codec (resolution i) text r) {expires : Option Nat}
    (hl : w.store.live w.now (key (resolution i).requestId) = some ⟨.text text, expires⟩)
    (hx : ∀ j, (resolution j).requestId = (resolution i).requestId →
      ¬ InProgress codec (resolution j) (eventsOf j t)) :
    Guarded codec resolution (Function.update φ i (.checked r))
      (t ++ [(i, ⟨.redis (.get (key (resolution i).requestId)), .ok (some text)⟩)]) w := by
  have hs := Redis.eq_of_live hl
  -- the text is the JSON form of the request that it is read as
  have hread {r' : ApprovalRequest} (hr : r'.WellFormed)
      (hd : Contains codec ⟨.text text, expires⟩ r') : r' = r := by
    obtain ⟨json, hj, he⟩ := hd
    cases he
    exact Option.some.inj ((ApprovalRequest.validateJson?_dumpJson hc hr hj).symm.trans ha.decoded)
  have hfree (j : ι) (hj : (resolution j).requestId = (resolution i).requestId) :
      ¬ (φ j).Busy := fun hb ↦ hx j hj ((h.points j).inProgress hb)
  have hunwritten (j : ι) (hj : (resolution j).requestId = (resolution i).requestId)
      (r' : ApprovalRequest) : ¬ (φ j).Wrote r' := by
    intro hw
    have hv := (h.points j).verdict hw
    have he := hread hv.wellFormed (h.settled j r' hw _ (hj ▸ hs))
    exact hv.decided (he ▸ ha.pending)
  have hwf : r.WellFormed := by
    obtain ⟨r', hr', hd⟩ := h.readable i _ hs
    rwa [← hread hr' hd]
  have hstart := h.points i
  rw [hi] at hstart
  refine ⟨h.now, h.readable, local_update h.points i _ ⟨hwf, ⟨text, r, ?_, ha⟩, ?_⟩, ?_, ?_, ?_⟩
  · exact List.mem_append_right _ (List.mem_singleton_self _)
  · intro seconds json reply hm
    rcases List.mem_append.mp hm with hm | hm
    · exact hstart seconds json reply hm
    · cases List.mem_singleton.mp hm
  · intro a b hab hba hbb
    by_cases hai : a = i
    · by_cases hbi : b = i
      · exact hai.trans hbi.symm
      · rw [Function.update_of_ne hbi] at hbb
        exact absurd hbb (hfree b (hab.symm.trans (congrArg _ (congrArg resolution hai))))
    · rw [Function.update_of_ne hai] at hba
      by_cases hbi : b = i
      · exact absurd hba (hfree a (hab.trans (congrArg _ (congrArg resolution hbi))))
      · rw [Function.update_of_ne hbi] at hbb
        exact h.single a b hab hba hbb
  · intro a b r' hab hwa
    by_cases hai : a = i
    · rw [hai, Function.update_self] at hwa
      exact hwa.elim
    rw [Function.update_of_ne hai] at hwa
    by_cases hbi : b = i
    · exact absurd hwa (hunwritten a (hab.trans (congrArg _ (congrArg resolution hbi))) r')
    · rw [Function.update_of_ne hbi]
      exact h.alone a b r' hab hwa
  · intro a r' hwa
    by_cases hai : a = i
    · rw [hai, Function.update_self] at hwa
      exact hwa.elim
    · rw [Function.update_of_ne hai] at hwa
      exact h.settled a r' hwa

/-- A resolver writes its verdict. -/
theorem Guarded.write (h : Guarded codec resolution φ t w) {i : ι} {r : ApprovalRequest}
    {json : String} (hi : φ i = .writing r json) (e : QueueEvent)
    (hstore : w'.store = (Redis.setex w.store w.now (key (resolution i).requestId) 3600 json).2)
    (hnow : w'.now = w.now) :
    Guarded codec resolution (Function.update φ i (.written r)) (t ++ [(i, e)]) w' := by
  have hp := h.points i
  rw [hi] at hp
  obtain ⟨hj, hv, -⟩ := hp
  have hbusy : (φ i).Busy := by
    rw [hi]
    trivial
  have hself (j : ι) (hij : (resolution j).requestId = (resolution i).requestId) (x : Redis.Entry)
      (hx : w'.store (key (resolution j).requestId) = some x) : Contains codec x r := by
    rw [hstore, hij, Redis.setex_self (by decide)] at hx
    cases hx
    exact ⟨json, hj, rfl⟩
  have hother (j : ι) (hij : (resolution j).requestId ≠ (resolution i).requestId) :
      w'.store (key (resolution j).requestId) = w.store (key (resolution j).requestId) := by
    rw [hstore]
    exact Redis.setex_of_ne fun hk ↦ hij (key_injective hk)
  have hb (j : ι) (hb : (Function.update φ i (.written r) j).Busy) : (φ j).Busy ∧ j ≠ i := by
    by_cases hji : j = i
    · rw [hji, Function.update_self] at hb
      exact hb.elim
    · rw [Function.update_of_ne hji] at hb
      exact ⟨hb, hji⟩
  -- before the step nobody has written the request, as this resolver is busy with it
  have hfirst (j : ι) (r' : ApprovalRequest)
      (hij : (resolution j).requestId = (resolution i).requestId) : ¬ (φ j).Wrote r' :=
    fun hw ↦ (h.alone j i r' hij hw).1 hbusy
  refine ⟨hnow ▸ h.now, fun j x hx ↦ ?_, local_update h.points i e hv, ?_, ?_, ?_⟩
  · by_cases hij : (resolution j).requestId = (resolution i).requestId
    · exact ⟨r, hv.wellFormed, hself j hij x hx⟩
    · rw [hother j hij] at hx
      exact h.readable j x hx
  · intro a b hab ha hb'
    exact h.single a b hab (hb a ha).1 (hb b hb').1
  · intro a b r' hab ha
    by_cases hai : a = i
    · refine ⟨fun hbb ↦ ?_, fun r'' hr ↦ ?_⟩
      · obtain ⟨hbb, hne⟩ := hb b hbb
        exact hne (h.single b i (by rw [← hab, hai]) hbb hbusy)
      · by_cases hbi : b = i
        · exact hai.trans hbi.symm
        · rw [Function.update_of_ne hbi] at hr
          exact absurd hr (hfirst b r'' (by rw [← hab, hai]))
    · rw [Function.update_of_ne hai] at ha
      refine ⟨fun hbb ↦ (h.alone a b r' hab ha).1 (hb b hbb).1, fun r'' hr ↦ ?_⟩
      by_cases hbi : b = i
      · exact absurd ha (hfirst a r' (by rw [hab, hbi]))
      · rw [Function.update_of_ne hbi] at hr
        exact (h.alone a b r' hab ha).2 r'' hr
  · intro a r' ha x hx
    by_cases hai : a = i
    · rw [hai, Function.update_self] at ha
      cases ha
      exact hself a (by rw [hai]) x hx
    · rw [Function.update_of_ne hai] at ha
      have hne : (resolution a).requestId ≠ (resolution i).requestId := fun he ↦ hfirst a r' he ha
      rw [hother a hne] at hx
      exact h.settled a r' ha x hx

/-- A step of any resolver. -/
theorem Guarded.step (hc : codec.Lawful) (hid : ∀ i, (resolution i).requestId ≠ pendingName)
    (h : Guarded codec resolution φ t w) {i : ι} {e : QueueEvent} {φ' : Resolving}
    (hm : Resolving.Moves codec (resolution i) (φ i) e φ') (ha : w.answer e.1 = (e.2, w'))
    (hx : Exclusive codec resolution (t ++ [(i, e)])) :
    Guarded codec resolution (Function.update φ i φ') (t ++ [(i, e)]) w' := by
  have hkey (j : ι) : key (resolution j).requestId ≠ pendingSet := key_ne_pendingSet (hid j)
  have hp := h.points i
  generalize hi : φ i = φᵢ at hm
  rw [hi] at hp
  cases hm with
  | refused x hn =>
    cases ha
    exact h.keep i _ rfl (fun _ ↦ rfl) trivial False.elim fun _ ↦ False.elim
  | @read text r hacc =>
    obtain ⟨rfl, expires, hl⟩ := live_of_answer_get ha
    exact h.read hc hi hacc hl (hx t [] i text r rfl hacc)
  | @clock r now json hj =>
    obtain ⟨hr, rfl⟩ := Prod.mk.inj ha
    cases hr
    refine h.keep i _ rfl (fun _ ↦ rfl) ⟨hj, ⟨hp.1.resolved _ h.now, ?_, ?_⟩, ?_, ?_⟩
      (fun _ ↦ hi ▸ trivial) fun _ ↦ False.elim
    · rw [hj]
      rfl
    · exact r.not_isPending_resolved _ _
    · obtain ⟨text, r₀, hm, hacc⟩ := hp.2.read
      exact ⟨text, r₀, List.mem_append_left _ hm, hacc⟩
    · intro seconds json' reply hm
      rcases List.mem_append.mp hm with hm | hm
      · exact hp.2.unwritten seconds json' reply hm
      · cases List.mem_singleton.mp hm
  | unwritable x hj =>
    cases ha
    exact h.keep i _ rfl (fun _ ↦ rfl) trivial False.elim fun _ ↦ False.elim
  | write r json =>
    obtain ⟨-, rfl⟩ := Prod.mk.inj ha
    exact h.write hi _ rfl rfl
  | writeFailed r json cls x =>
    rw [answer_setex (by decide)] at ha
    cases ha
  | remove r n =>
    obtain ⟨-, rfl⟩ := Prod.mk.inj ha
    refine h.keep i _ rfl (fun j ↦ Redis.srem_of_ne (hkey j)) hp False.elim fun r' hr ↦ ?_
    rw [hi]
    exact hr
  | removeFailed r cls x =>
    obtain ⟨-, rfl⟩ := Prod.mk.inj ha
    exact h.keep i _ rfl (fun j ↦ Redis.srem_of_ne (hkey j)) trivial False.elim fun _ ↦ False.elim

/-- Resolutions that never overlap between reading and writing a request resolve it once, and
what the first one writes stays. -/
theorem resolvedOnce_of_exclusive (hc : codec.Lawful) {w₀ : Server} {L : Ledger}
    (h₀ : Represents codec w₀ L) (hn : w₀.now ≤ Python.datetimeMax)
    (hid : ∀ i, canonicalUuid (resolution i).requestId = true) {p : ι → QueueProg}
    (h : Reach (concurrent ι) (fun i ↦ resolve codec (resolution i) ()) w₀ t p w)
    (hx : Exclusive codec resolution t) : ResolvedOnce codec resolution p w := by
  have hne (i : ι) : (resolution i).requestId ≠ pendingName := ne_pendingName (hid i)
  have hinv := h.controlled (resolving codec resolution) (fun _ ↦ rfl)
    (I := fun φ t w ↦ Exclusive codec resolution t → Guarded codec resolution φ t w) ?_ ?_ ?_
  · obtain ⟨φ, hφ, hg⟩ := hinv
    have hg := hg hx
    have hwrote {i : ι} {r : ApprovalRequest} (hp : p i = .done (.ok r, ())) : (φ i).Wrote r :=
      Resolving.wrote_of_program ((hφ i).symm.trans hp)
    refine ⟨fun i j r r' hij hi hj ↦ ?_, fun i r hi r' hs ↦ ?_⟩
    · exact (hg.alone i j r hij (hwrote hi)).2 r' (hwrote hj)
    · obtain ⟨text, ⟨expires, hl⟩, hv⟩ := hs
      obtain ⟨json, hj, he⟩ := hg.settled i r (hwrote hi) _ (Redis.eq_of_live hl)
      cases he
      have hwf := ((hg.points i).verdict (hwrote hi)).wellFormed
      cases hv.symm.trans (ApprovalRequest.validateJson?_dumpJson hc hwf hj)
      exact ⟨rfl, rfl⟩
  · intro _
    refine ⟨hn, fun i e he ↦ ?_, fun i ↦ ?_, fun i j _ hb ↦ hb.elim, fun i j r _ hw ↦ hw.elim,
      fun i r hw ↦ hw.elim⟩
    · have hk := h₀.record _ (hne i)
      rw [he] at hk
      generalize L.record (resolution i).requestId = o at hk
      cases hk with
      | some hk =>
        obtain ⟨hwf, json, hj, rfl⟩ := hk
        exact ⟨_, hwf, json, hj, rfl⟩
    · exact fun _ _ _ ↦ List.not_mem_nil
  · intro φ t w w' i e φ' hg hm ha hx'
    exact (hg hx'.of_append).step hc hne hm ha hx'
  · rintro φ t w w' hg ⟨now, -, hd, rfl⟩ hx'
    obtain ⟨-, hread, hpoints, hsingle, halone, hsettled⟩ := hg hx'
    exact ⟨hd, hread, hpoints, hsingle, halone, hsettled⟩

/-! ### Two resolutions at once -/

private theorem answer_srem {L : Ledger} (h : Represents codec w L) (id : String) :
    ∃ n w', w.answer (.redis (.srem pendingSet id)) = (.ok n, w') ∧
      Represents codec w' { L with index := L.index.filter (· ≠ id) } := by
  obtain ⟨n, w', hcall, -, hr⟩ := h.srem id
  rw [Server.call_redis] at hcall
  obtain ⟨hn, rfl⟩ := Prod.mk.inj hcall
  refine ⟨n, _, ?_, hr⟩
  rw [Server.answer]
  cases hx : (Redis.exec w.now (.srem pendingSet id) w.store).1 with
  | error x =>
    rw [hx] at hn
    cases hn
  | ok m =>
    rw [hx] at hn
    cases hn
    rfl

variable (resolution) in
/-- Two resolvers of one pending request can both return, each with its own verdict; the record
is left with the second. -/
theorem both_resolve (hc : codec.Lawful) {L : Ledger} (h : Represents codec w L)
    (hn : w.now ≤ Python.datetimeMax) {id : String} {r : ApprovalRequest}
    (hf : L.lookup id = some r) (hp : r.IsPending) {i j : ι} (hij : i ≠ j)
    (hi : (resolution i).requestId = id) (hj : (resolution j).requestId = id)
    (hai : (resolution i).approverIdentity ≠ r.agentId)
    (haj : (resolution j).approverIdentity ≠ r.agentId) :
    ∃ t p w', Reach (concurrent ι) (fun k ↦ resolve codec (resolution k) ()) w t p w' ∧
      p i = .done (.ok (r.resolved (resolution i) w.now), ()) ∧
      p j = .done (.ok (r.resolved (resolution j) w.now), ()) ∧
      Stored codec w' id (r.resolved (resolution j) w.now) := by
  obtain ⟨hw, text, ht, hl⟩ := h.live hf
  have hdec := ApprovalRequest.validateJson?_dumpJson hc hw ht
  have hne := ApprovalRequest.ne_empty_of_validateJson? hdec
  obtain ⟨a, ha⟩ := ApprovalRequest.exists_dumpJson_resolved hc ht (resolution i) w.now
  obtain ⟨b, hb⟩ := ApprovalRequest.exists_dumpJson_resolved hc ht (resolution j) w.now
  have hid := h.ne_pendingName (IndexedTable.find_eq_some_iff.mp hf).1
  have hacc (k : ι) (hk : (resolution k).approverIdentity ≠ r.agentId) :
      Resolving.Accepts codec (resolution k) text r := ⟨hne, hdec, hp, hk⟩
  have hget (k : ι) (hk : (resolution k).requestId = id) :
      w.answer (.redis (.get (key (resolution k).requestId))) = (.ok (some text), w) :=
    answer_get (hk ▸ hl)
  have hra := h.setex (hi ▸ hid) (hw.resolved (resolution i) hn) ha 3600
    (by decide) rfl
  have hrb := hra.setex (hj ▸ hid) (hw.resolved (resolution j) hn) hb 3600
    (by decide) rfl
  obtain ⟨m, w₁, hm, hr₁⟩ := answer_srem hrb (resolution i).requestId
  obtain ⟨n, w₂, hn₂, hr₂⟩ := answer_srem hr₁ (resolution j).requestId
  -- both read the pending record before either writes it
  have h₀ : Reach (concurrent ι) (fun k ↦ resolve codec (resolution k) ()) w [] _ w := .start
  obtain ⟨p₁, h₁, hi₁, ho₁⟩ := exists_move h₀ (i := i) (φ := .start) rfl
    (.read (hacc i hai)) nofun (hget i hi)
  obtain ⟨p₂, h₂, hj₂, ho₂⟩ := exists_move h₁ (i := j) (φ := .start) (ho₁ j hij.symm)
    (.read (hacc j haj)) nofun (hget j hj)
  obtain ⟨p₃, h₃, hi₃, ho₃⟩ := exists_move h₂ ((ho₂ i hij).trans hi₁) (.clock w.now ha) nofun rfl
  obtain ⟨p₄, h₄, hj₄, ho₄⟩ := exists_move h₃ ((ho₃ j hij.symm).trans hj₂) (.clock w.now hb) nofun
    rfl
  obtain ⟨p₅, h₅, hi₅, ho₅⟩ := exists_move h₄ ((ho₄ i hij).trans hi₃) (.write _ a) nofun
    (answer_setex (by decide))
  obtain ⟨p₆, h₆, hj₆, ho₆⟩ := exists_move h₅ ((ho₅ j hij.symm).trans hj₄) (.write _ b) nofun
    (answer_setex (by decide))
  obtain ⟨p₇, h₇, hi₇, ho₇⟩ := exists_move h₆ ((ho₆ i hij).trans hi₅) (.remove _ m) nofun hm
  obtain ⟨p₈, h₈, hj₈, ho₈⟩ := exists_move h₇ ((ho₇ j hij.symm).trans hj₆) (.remove _ n) nofun hn₂
  refine ⟨_, p₈, w₂, h₈, (ho₈ i hij).trans hi₇, hj₈, ?_⟩
  refine (hr₂.stored_iff hc).mpr (IndexedTable.find_eq_some_iff.mpr ⟨?_, ?_⟩)
  · rw [← hj]
    exact Function.update_self ..
  · show L.now < w.now + 3600 * 1000000
    rw [h.now]
    omega

variable (resolution) in
/-- One resolver returns before any other has begun, and meets the condition. -/
theorem one_resolves (hc : codec.Lawful) {L : Ledger} (h : Represents codec w L)
    (hn : w.now ≤ Python.datetimeMax) {r : ApprovalRequest} {i : ι}
    (hf : L.lookup (resolution i).requestId = some r) (hp : r.IsPending)
    (hai : (resolution i).approverIdentity ≠ r.agentId) :
    ∃ t p w', Reach (concurrent ι) (fun k ↦ resolve codec (resolution k) ()) w t p w' ∧
      Exclusive codec resolution t ∧
      p i = .done (.ok (r.resolved (resolution i) w.now), ()) ∧
      (∀ j, j ≠ i → p j = resolve codec (resolution j) ()) ∧
      Represents codec w'
        (L.close (resolution i).requestId (r.resolved (resolution i) w.now)) := by
  obtain ⟨hw, text, ht, hl⟩ := h.live hf
  have hdec := ApprovalRequest.validateJson?_dumpJson hc hw ht
  have hacc : Resolving.Accepts codec (resolution i) text r :=
    ⟨ApprovalRequest.ne_empty_of_validateJson? hdec, hdec, hp, hai⟩
  obtain ⟨a, ha⟩ := ApprovalRequest.exists_dumpJson_resolved hc ht (resolution i) w.now
  have hid := h.ne_pendingName (IndexedTable.find_eq_some_iff.mp hf).1
  have hra := h.setex hid (hw.resolved (resolution i) hn) ha 3600 (by decide) rfl
  obtain ⟨m, w₁, hm, hr₁⟩ := answer_srem hra (resolution i).requestId
  have h₀ : Reach (concurrent ι) (fun k ↦ resolve codec (resolution k) ()) w [] _ w := .start
  obtain ⟨p₁, h₁, hi₁, ho₁⟩ := exists_move h₀ (i := i) (φ := .start) rfl
    (.read hacc) nofun (answer_get hl)
  obtain ⟨p₂, h₂, hi₂, ho₂⟩ := exists_move h₁ hi₁ (.clock w.now ha) nofun rfl
  obtain ⟨p₃, h₃, hi₃, ho₃⟩ := exists_move h₂ hi₂ (.write _ a) nofun (answer_setex (by decide))
  obtain ⟨p₄, h₄, hi₄, ho₄⟩ := exists_move h₃ hi₃ (.remove _ m) nofun hm
  refine ⟨_, p₄, w₁, h₄, ?_, hi₄, fun j hj ↦ ?_, hr₁⟩
  swap
  · exact (ho₄ j hj).trans ((ho₃ j hj).trans ((ho₂ j hj).trans (ho₁ j hj)))
  -- the only command that reads is the first
  intro t₁ t₂ k text' r' hsplit _ j _ hprog
  have ht₁ : t₁ = [] := by
    cases t₁ with
    | nil => rfl
    | cons e t₁ =>
      have hmem : (k, ⟨.redis (.get (key (resolution k).requestId)), .ok (some text')⟩) ∈
          t₁ ++ (k, ⟨.redis (.get (key (resolution k).requestId)), .ok (some text')⟩) :: t₂ :=
        List.mem_append_right _ List.mem_cons_self
      have htail := (List.cons.inj hsplit).2
      change _ = t₁ ++ _ at htail
      rw [← htail] at hmem
      simp at hmem
  obtain ⟨text'', r'', hread, -⟩ := hprog.read
  rw [ht₁] at hread
  cases hread

end

/-! ### The first request -/

/-- Two opposite verdicts on the first request. -/
def verdicts : Bool → ApprovalResolution
  | true => ⟨firstId, "approve", "user:alice", none⟩
  | false => ⟨firstId, "deny", "user:bob", none⟩

/-- The verdicts are on a request with a canonical identifier. -/
theorem verdicts_canonical (b : Bool) : canonicalUuid (verdicts b).requestId = true := by
  cases b <;> decide

/-- Both verdicts are accepted, and the later one overwrites the earlier. -/
theorem verdicts_race : ∃ t p w,
    Reach (concurrent Bool) (fun i ↦ resolve isoCodec (verdicts i) ()) firstServer t p w ∧
      ¬ ResolvedOnce isoCodec verdicts p w := by
  obtain ⟨L, hk⟩ := firstRun_kept
  obtain ⟨hf, hp⟩ := hk.openIn_iff.mp firstRequest_open
  obtain ⟨t, p, w, h, ht, hf, -⟩ := both_resolve verdicts isoCodec_lawful
    hk.represents hk.now hf hp (i := true) (j := false) (by decide) rfl rfl (by decide) (by decide)
  refine ⟨t, p, w, h, fun ho ↦ ?_⟩
  cases ho.once true false _ _ rfl ht hf

private theorem exists_refused {t : List (ι × QueueEvent)} {w₀ w : Server}
    {resolution : ι → ApprovalResolution} {p₀ p : ι → QueueProg} {codec : Codec}
    (hc : codec.Lawful) (h : Reach (concurrent ι) p₀ w₀ t p w) {L : Ledger}
    (hr : Represents codec w L) {j : ι} (hp : p j = resolve codec (resolution j) ())
    {r : ApprovalRequest} (hf : L.lookup (resolution j).requestId = some r)
    (hs : r.status ≠ .pending) (hx : Exclusive codec resolution t) :
    ∃ u p' e, Reach (concurrent ι) p₀ w₀ (t ++ u) p' w ∧ Exclusive codec resolution (t ++ u) ∧
      p' j = .done (.error e, ()) ∧ ∀ i, i ≠ j → p' i = p i := by
  obtain ⟨hw, text, ht, hl⟩ := hr.live hf
  have hdec := ApprovalRequest.validateJson?_dumpJson hc hw ht
  have hno (r' : ApprovalRequest) : ¬ Resolving.Accepts codec (resolution j) text r' := by
    intro hacc
    cases hdec.symm.trans hacc.decoded
    exact hs hacc.pending
  obtain ⟨k, hk⟩ : ∃ k : Except String (Option String) → QueueProg,
      resolve codec (resolution j) () = .call (.redis (.get (key (resolution j).requestId))) k :=
    ⟨_, rfl⟩
  obtain ⟨φ, hφ, hm⟩ := Resolving.step (φ := .start) hk (.ok (some text))
  obtain ⟨e, rfl⟩ : ∃ e, φ = .ended (.error e) := by
    cases hm with
    | refused e => exact ⟨e, rfl⟩
    | read hacc => exact absurd hacc (hno _)
  obtain ⟨p', h', hj, ho⟩ := h.exists_call (i := j)
    (e := ⟨.redis (.get (key (resolution j).requestId)), .ok (some text)⟩)
    ⟨k, hp.trans hk, hφ⟩ (answer_get hl)
  refine ⟨_, p', e, h', hx.concat j ?_, hj, ho⟩
  rintro _ r' ⟨⟩
  exact hno r'

/-- The first verdict stays, and the second is refused. -/
theorem verdict_stays : ∃ t p w e,
    Reach (concurrent Bool) (fun i ↦ resolve isoCodec (verdicts i) ()) firstServer t p w ∧
      p true = .done (.ok (firstRequest.resolved (verdicts true) firstServer.now), ()) ∧
      p false = .done (.error e, ()) ∧ ResolvedOnce isoCodec verdicts p w := by
  obtain ⟨L, hk⟩ := firstRun_kept
  obtain ⟨hf, hp⟩ := hk.openIn_iff.mp firstRequest_open
  obtain ⟨t, p, w, h, hx, hd, ho, hr⟩ := one_resolves verdicts isoCodec_lawful
    hk.represents hk.now (i := true) hf hp (by decide)
  have hf' := Ledger.lookup_close L firstId firstRequest (verdicts true) hk.represents.now
  obtain ⟨u, p', e, h', hx', hj, hi⟩ := exists_refused isoCodec_lawful h hr (j := false)
    (ho false (by decide)) hf' (firstRequest.not_isPending_resolved (verdicts true) _) hx
  exact ⟨t ++ u, p', w, e, h', (hi true (by decide)).trans hd, hj,
    resolvedOnce_of_exclusive isoCodec_lawful hk.represents hk.now verdicts_canonical h' hx'⟩

end
end NhiSentinel.Approval
