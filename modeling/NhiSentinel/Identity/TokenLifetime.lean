import NhiSentinel.Identity.TokenManager

/-!
# How long a token is used

The calls of `get_token` on one manager under a clock that is not set back: how old a token can
be that is taken from the cache, and how often the identity provider is asked for another.
-/

namespace NhiSentinel.Identity.TokenManager
open NhiSentinel.Base

/-- The clock readings of a trace. -/
def readings (t : List TokenEvent) : List Int :=
  t.filterMap fun
    | ⟨.time, now⟩ => some now
    | _ => none

/-- The clock readings of calls, in their order. -/
def clock (uses : List TokenUse) : List Int := uses.flatMap fun u ↦ readings u.trace

/-- How long a token is taken from the cache, in microseconds. -/
def lifetime (settings : Settings) : Int := (settings.tokenTtlSeconds - 30) * 1000000

/-- A call acquired a token: when its assertion was made, and when the token was there. -/
def AcquiredAt (u : TokenUse) (token : Value) (made held : Int) : Prop :=
  u.outcome = .ok token ∧ ∃ t jti payload key assertion url clientId text,
    u.trace = t ++ [⟨.time, made⟩, ⟨.uuid4, jti⟩, ⟨.encode payload key, .ok assertion⟩,
      ⟨.post url assertion clientId, .ok ⟨200, text, .ok token⟩⟩, ⟨.time, held⟩]

/-- No token is empty that was acquired. -/
def GrantsTokens (uses : List TokenUse) : Prop :=
  ∀ u ∈ uses, ∀ token made held, AcquiredAt u token made held → token.truthy = true

/-- When the token was there that a call acquired. -/
def heldAt? (u : TokenUse) : Option Int :=
  match u.outcome, u.trace.reverse with
  | .ok _, ⟨.time, held⟩ :: ⟨.post .., _⟩ :: _ => some held
  | _, _ => none

/-- When tokens were acquired, in the order of the calls. -/
def acquisitions (uses : List TokenUse) : List Int := uses.filterMap heldAt?

/-- A call asks for more than the time. -/
def Asks (u : TokenUse) : Prop := ∃ e ∈ u.trace, e.1 ≠ .time

/-- The clock readings of two traces, one after the other. -/
@[simp] theorem readings_append (t t' : List TokenEvent) :
    readings (t ++ t') = readings t ++ readings t' := List.filterMap_append

/-- The clock readings of two sequences of uses, one after the other. -/
@[simp] theorem clock_append (uses uses' : List TokenUse) :
    clock (uses ++ uses') = clock uses ++ clock uses' := List.flatMap_append

/-- The clock readings of one use. -/
@[simp] theorem clock_singleton (u : TokenUse) : clock [u] = readings u.trace :=
  List.flatMap_singleton ..

private theorem acquisitions_concat (uses : List TokenUse) (u : TokenUse) :
    acquisitions (uses ++ [u]) = acquisitions uses ++ (heldAt? u).toList := by
  rw [acquisitions, List.filterMap_append]
  cases h : heldAt? u with
  | none => simp [acquisitions, h]
  | some held => simp [acquisitions, h]

/-- A history whose tokens are not empty began with such a history. -/
theorem GrantsTokens.left {uses uses' : List TokenUse} (h : GrantsTokens (uses ++ uses')) :
    GrantsTokens uses := fun u hu ↦ h u (List.mem_append_left _ hu)

/-! ### What one call does -/

/-- A call that finds a good token in the cache acquires none. -/
theorem heldAt?_singleton (context : AgentContext) (now : Int) (out : Except TokenExn Value) :
    heldAt? ⟨context, [⟨.time, now⟩], out⟩ = none := by
  cases out <;> rfl

/-- A call that acquires a token reads the time when it is there. -/
theorem AcquiredAt.heldAt? {u : TokenUse} {token : Value} {made held : Int}
    (h : AcquiredAt u token made held) : heldAt? u = some held := by
  obtain ⟨ho, t, jti, payload, key, assertion, url, clientId, text, ht⟩ := h
  rw [TokenManager.heldAt?, ho, ht, List.reverse_append]
  rfl

/-- An acquisition that ends with a token, and what follows it. -/
theorem Acquires.acquiredAt {manager : TokenManager} {context : AgentContext}
    {u : List TokenEvent} {token : Value} (ha : manager.Acquires context u (.ok token))
    (t : List TokenEvent) (held : Int) :
    ∃ made, AcquiredAt ⟨context, t ++ (u ++ [⟨.time, held⟩]), .ok token⟩ token made held := by
  cases ha with
  | granted made jti key assertion text =>
    exact ⟨made, rfl, t, jti, _, key, assertion, _, _, text, rfl⟩

/-- Every time that a token was acquired at is a reading of the clock. -/
theorem mem_clock_of_mem_acquisitions {uses : List TokenUse} {held : Int}
    (h : held ∈ acquisitions uses) : held ∈ clock uses := by
  obtain ⟨u, hu, hh⟩ := List.mem_filterMap.mp h
  refine List.mem_flatMap.mpr ⟨u, hu, ?_⟩
  obtain ⟨context, trace, out⟩ := u
  unfold TokenManager.heldAt? at hh
  split at hh
  · next hr =>
    cases hh
    have ht := congrArg List.reverse hr
    rw [List.reverse_reverse] at ht
    rw [ht]
    simp [readings]
  · cases hh

/-! ### Every sequence of calls -/

/-- What is known after some calls: the cache has the token that was acquired last, and tokens
were acquired with a distance. -/
structure Paced (start : TokenManager) (uses : List TokenUse) (manager : TokenManager) : Prop where
  settings : manager.settings = start.settings
  empty : manager.cachedToken = none → acquisitions uses = []
  last : ∀ token, manager.cachedToken = some token → ∃ v ∈ uses, ∃ made held,
    AcquiredAt v token made held ∧
      manager.tokenExpiresAt = held + start.settings.tokenTtlSeconds * 1000000 ∧
      ∀ a ∈ acquisitions uses, a ≤ held
  spaced : (acquisitions uses).Pairwise fun a b ↦ a + lifetime start.settings ≤ b

section
variable {start manager manager' : TokenManager} {uses : List TokenUse} {context : AgentContext}
  {t : List TokenEvent} {out : Except TokenExn Value}

/-- Past a cache without a good token, the tokens that were acquired have had their time. -/
theorem Paced.of_misses (h : Paced start uses manager)
    (ht : GrantsTokens uses)
    {t : List TokenEvent} (hm : manager.Misses t) {a : Int} (ha : a ∈ acquisitions uses) :
    ∃ now : Int, t = [⟨.time, now⟩] ∧ a + lifetime start.settings ≤ now := by
  cases hc : manager.cachedToken with
  | none =>
    rw [h.empty hc] at ha
    cases ha
  | some token =>
    obtain ⟨v, hv, made, held, hacq, hexp, hle⟩ := h.last token hc
    rcases hm with ⟨hn, -⟩ | ⟨now, hf, rfl⟩
    · rw [hc, Option.filter_some, if_pos (ht v hv token made held hacq)] at hn
      cases hn
    · refine ⟨now, rfl, ?_⟩
      rw [Fresh, hexp] at hf
      have := hle a ha
      rw [lifetime]
      omega

/-- One more call. -/
theorem Paced.concat (h : Paced start uses manager)
    (hc : (clock (uses ++ [⟨context, t, out⟩])).Pairwise (· ≤ ·))
    (ht : GrantsTokens uses)
    (hg : manager.Gets context t out manager') :
    Paced start (uses ++ [⟨context, t, out⟩]) manager' := by
  have idle {v : TokenUse} (hh : heldAt? v = none) : Paced start (uses ++ [v]) manager := by
    have ha : acquisitions (uses ++ [v]) = acquisitions uses := by
      rw [acquisitions_concat, hh, Option.toList_none, List.append_nil]
    refine ⟨h.settings, fun hn ↦ ha.trans (h.empty hn), fun token hk ↦ ?_, ha ▸ h.spaced⟩
    obtain ⟨v, hv, made, held, hacq, hexp, hle⟩ := h.last token hk
    exact ⟨v, List.mem_append_left _ hv, made, held, hacq, hexp, ha ▸ hle⟩
  cases hg with
  | cached now token ha => exact idle (heldAt?_singleton ..)
  | failed t u e hm ha => exact idle rfl
  | acquired t u token hm ha held =>
    obtain ⟨made, hacq⟩ := ha.acquiredAt t held
    have hacqs := acquisitions_concat uses ⟨context, t ++ (u ++ [⟨.time, held⟩]), .ok token⟩
    rw [hacq.heldAt?, Option.toList_some] at hacqs
    rw [clock_append, clock_singleton, readings_append, readings_append, List.pairwise_append] at hc
    have hheld : held ∈ readings [⟨.time, held⟩] := List.mem_singleton_self _
    have hlate (a : Int) (hm : a ∈ acquisitions uses) : a ≤ held :=
      hc.2.2 a (mem_clock_of_mem_acquisitions hm) held
        (List.mem_append_right _ (List.mem_append_right _ hheld))
    refine ⟨h.settings, fun hn ↦ (by cases hn), ?_, ?_⟩
    · intro token' hk
      cases hk
      refine ⟨_, List.mem_append_right _ (List.mem_singleton_self _), made, held, hacq, ?_, ?_⟩
      · show held + manager.settings.tokenTtlSeconds * 1000000 = _
        rw [h.settings]
      · intro a ha
        rw [hacqs] at ha
        rcases List.mem_append.mp ha with ha | ha
        · exact hlate a ha
        · rw [List.mem_singleton.mp ha]
    · rw [hacqs, List.pairwise_append]
      refine ⟨h.spaced, List.pairwise_singleton .., fun a ha' b hb ↦ ?_⟩
      rw [List.mem_singleton.mp hb]
      obtain ⟨now, rfl, hnow⟩ := h.of_misses ht hm ha'
      have hle : now ≤ held :=
        (List.pairwise_append.mp hc.2.1).2.2 now (List.mem_singleton_self _) held
          (List.mem_append_right _ hheld)
      exact hnow.trans hle

/-- A token that is returned is a new one, or it has not had its time. -/
theorem Paced.young (h : Paced start uses manager) {token : Value}
    (hg : manager.Gets context t (.ok token) manager') :
    (∃ made held, AcquiredAt ⟨context, t, .ok token⟩ token made held) ∨
      ∃ v ∈ uses, ∃ made held now : Int, AcquiredAt v token made held ∧ t = [⟨.time, now⟩] ∧
        now < held + lifetime start.settings := by
  cases hg with
  | cached now token ha =>
    obtain ⟨v, hv, made, held, hacq, hexp, -⟩ := h.last token ha.1
    refine .inr ⟨v, hv, made, held, now, hacq, rfl, ?_⟩
    have hf := ha.2.2
    rw [Fresh, hexp] at hf
    rw [lifetime]
    omega
  | acquired t u token hm ha held =>
    obtain ⟨made, hacq⟩ := ha.acquiredAt t held
    exact .inl ⟨made, held, hacq⟩

/-- Another token is asked for when the ones before have had their time. -/
theorem Paced.asked (h : Paced start uses manager)
    (ht : GrantsTokens uses)
    (hg : manager.Gets context t out manager') (ha : Asks ⟨context, t, out⟩) {held : Int}
    (hh : held ∈ acquisitions uses) :
    ∃ now : Int, t.head? = some ⟨.time, now⟩ ∧ held + lifetime start.settings ≤ now := by
  cases hg with
  | cached now token _ =>
    obtain ⟨e, he, hn⟩ := ha
    cases List.mem_singleton.mp he
    exact absurd rfl hn
  | failed t u e hm | acquired t u token hm =>
    obtain ⟨now, rfl, hnow⟩ := h.of_misses ht hm hh
    exact ⟨now, rfl, hnow⟩

/-- Calls of a manager that begins without a token are paced. -/
theorem Uses.paced (h : Uses start uses manager) (h₀ : start.cachedToken = none)
    (hc : (clock uses).Pairwise (· ≤ ·))
    (ht : GrantsTokens uses) :
    Paced start uses manager := by
  induction h with
  | nil =>
    refine ⟨rfl, fun _ ↦ rfl, fun token hk ↦ ?_, List.Pairwise.nil⟩
    rw [h₀] at hk
    cases hk
  | @snoc uses m m' h u hr ih =>
    have hc' := hc
    rw [clock_append, List.pairwise_append] at hc'
    exact (ih hc'.1 ht.left).concat hc ht.left (getToken_run hr)

/-- What is promised of the tokens of a manager. -/
structure Timely (start : TokenManager) (uses : List TokenUse) : Prop where
  young : ∀ before u after token, uses = before ++ u :: after → u.outcome = .ok token →
    (∃ made held, AcquiredAt u token made held) ∨
      ∃ v ∈ before, ∃ made held now : Int, AcquiredAt v token made held ∧
        u.trace = [⟨.time, now⟩] ∧ now < held + lifetime start.settings
  asked : ∀ before u after, uses = before ++ u :: after → Asks u →
    ∀ held ∈ acquisitions before, ∃ now : Int, u.trace.head? = some ⟨.time, now⟩ ∧
      held + lifetime start.settings ≤ now
  spaced : (acquisitions uses).Pairwise fun a b ↦ a + lifetime start.settings ≤ b

/-- Under a clock that is not set back and with tokens that are not empty, a token is taken from
the cache for its lifetime less 30 seconds, and for so long no other is asked for. -/
theorem token_lifetimes (h : Uses start uses manager) (h₀ : start.cachedToken = none)
    (hc : (clock uses).Pairwise (· ≤ ·))
    (ht : GrantsTokens uses) :
    Timely start uses := by
  have hpaced {before after : List TokenUse} {u : TokenUse} {m : TokenManager}
      (hs : uses = before ++ u :: after) (hm : Uses start before m) : Paced start before m := by
    rw [hs, clock_append, List.pairwise_append] at hc
    exact hm.paced h₀ hc.1 (hs ▸ ht).left
  refine ⟨?_, ?_, (h.paced h₀ hc ht).spaced⟩
  · intro before u after token hs ho
    obtain ⟨m, m', hm, hg⟩ := h.split hs
    obtain ⟨context, trace, outcome⟩ := u
    cases ho
    exact (hpaced hs hm).young hg
  · intro before u after hs ha held hh
    obtain ⟨m, m', hm, hg⟩ := h.split hs
    exact (hpaced hs hm).asked (hs ▸ ht).left hg ha hh

end

/-- A token that is fetched and used again. -/
theorem token_lifetimes_twoUses : Timely keyedManager (twoUses "task-001" "task-001") := by
  obtain ⟨manager, h⟩ := twoUses_uses "task-001" "task-001"
  refine token_lifetimes h rfl (by decide) fun v hv token made held ha ↦ ?_
  rcases List.mem_cons.mp hv with rfl | hv
  · cases ha.1
    rfl
  · cases List.mem_singleton.mp hv
    cases ha.1
    rfl

end NhiSentinel.Identity.TokenManager
