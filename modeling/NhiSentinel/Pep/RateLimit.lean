import Mathlib.Data.List.Induction
import Mathlib.Data.List.Nodup
import NhiSentinel.Base.Interleave
import NhiSentinel.Pep.Mediation
import NhiSentinel.Policy.Modules

/-!
# Counting in a minute

Enforcements of any agents, interleaved call by call on one Redis server within one
minute. The counters are exact; the comparison of the policy admits one action less than
the limit.
-/

namespace NhiSentinel.Pep
open NhiSentinel.Base NhiSentinel.Rego NhiSentinel.Policy

/-! ### One enforcement -/

/-- The calls that follow the counting of a request. -/
def Later (request : ActionRequest) : Call → Prop
  | .post _ body => body = opaInput request
  | .redis (.setex key _ _) => ∃ requestId, key = "approval:" ++ requestId
  | .clock | .cedar _ | .uuid4 | .approvalClient | .approvalTtl => True
  | _ => False

/-- The calls of an enforcement in their order: the checks, the counting, and the rest. -/
structure Ordered (s : State) (t u v x : List Event) : Prop where
  split : t = u ++ (v ++ x)
  checks : Within [.connection, .suspension] u
  counting : v = [] ∨ ∃ count, Counting s.request.agentId v count
  later : ∀ e ∈ x, Later (s.request.sent v) e.1

section
variable {rt : Runtime} {s : State} {t : List Event}

private theorem later_of_clock {request : ActionRequest} {u : List Event}
    (h : Within [.clock] u) : ∀ e ∈ u, Later request e.1 := by
  rintro ⟨c, r⟩ he
  have hc := h _ he
  cases c with
  | clock => trivial
  | redis c => cases c <;> simp [Call.stage] at hc
  | _ => simp [Call.stage] at hc

private theorem Queueing.later {request request' : ActionRequest} {decision : PolicyDecision}
    {out : Except PyExn String} (h : Queueing rt request decision t out) :
    ∀ e ∈ t, Later request' e.1 := by
  cases h with
  | clientFailed | ttlFailed => simp [Later]
  | written requestId =>
    simp only [List.mem_cons, List.not_mem_nil, or_false, forall_eq_or_imp, forall_eq, Later,
      true_and]
    exact ⟨requestId, rfl⟩

private theorem Acted.later {request request' : ActionRequest} {decision : PolicyDecision}
    {out : Except PyExn Unit} (h : Acted rt request decision t out) :
    ∀ e ∈ t, Later request' e.1 := by
  cases h with
  | deny | ungoverned => simp
  | resource | resourceFailed => simp [Later]
  | queued _ hq | queueFailed _ hq => exact hq.later

private theorem Admitted.ordered (ha : Admitted s t) {x : List Event}
    (hx : ∀ e ∈ x, Later (s.request.sent t) e.1) : ∃ u v, Ordered s (t ++ x) u v x := by
  obtain ⟨u, v, rfl, hu, hv⟩ := ha.counted
  have hi : injected (u ++ v) = injected v := by
    simpa using injected_append (v := []) hu (within_nil _) (by decide)
  have hs : s.request.sent (u ++ v) = s.request.sent v := by
    rw [ActionRequest.sent, ActionRequest.sent, hi]
  rw [hs] at hx
  exact ⟨u, v, List.append_assoc .., hu, hv, hx⟩

/-- Every enforcement makes its calls in this order. -/
theorem Enforced.ordered {out : Except PyExn Unit} (h : Enforced rt s t out) :
    ∃ u v x, Ordered s t u v x := by
  cases h with
  | unbound | illTyped => exact ⟨[], [], [], rfl, within_nil _, .inl rfl, by simp⟩
  | suspended _ hw => exact ⟨t, [], [], (List.append_nil t).symm, hw, .inl rfl, by simp⟩
  | unserializable ha =>
    obtain ⟨u, v, h⟩ := ha.ordered (x := []) (by simp)
    rw [List.append_nil] at h
    exact ⟨u, v, [], h⟩
  | unevaluated ha _ _ _ _ hu =>
    obtain ⟨u, v, h⟩ := ha.ordered (x := ⟨.post _ _, _⟩ :: _)
      (List.forall_mem_cons.mpr ⟨rfl, later_of_clock hu⟩)
    exact ⟨u, v, _, h⟩
  | evaluated ha _ _ _ _ hu hd =>
    obtain ⟨u, v, h⟩ := ha.ordered (x := ⟨.post _ _, _⟩ :: (_ ++ _))
      (List.forall_mem_cons.mpr ⟨rfl, List.forall_mem_append.mpr ⟨later_of_clock hu, hd.later⟩⟩)
    exact ⟨u, v, _, h⟩

/-- A clock reading within the minute, a time to live that was set. -/
def Punctual (bucket : Nat) : Event → Prop
  | ⟨.clock, now⟩ => minuteBucket now = bucket
  | ⟨.redis (.expire ..), reply⟩ => ∃ b, reply = .ok b
  | _ => True

/-- The commands of an enforcement within a minute. -/
def Expected (agentId : String) (bucket : Nat) : Call → Prop
  | .redis (.sismember ..) => True
  | .redis (.incr key) => key = rateKey agentId bucket
  | .redis (.expire key seconds) => key = rateKey agentId bucket ∧ seconds = 120
  | .redis (.setex key _ _) => ∃ requestId, key = "approval:" ++ requestId
  | .redis _ => False
  | _ => True

section
variable {u v x : List Event} {bucket : Nat} (h : Ordered s t u v x)
  (hp : ∀ e ∈ t, Punctual bucket e)
include h

private theorem Ordered.mem {e : Event} : e ∈ t ↔ e ∈ u ∨ e ∈ v ∨ e ∈ x := by
  rw [h.split]
  simp

include hp

/-- Within a minute an enforcement only issues the commands that are expected of it. -/
theorem Ordered.expected {e : Event} (he : e ∈ t) :
    Expected s.request.agentId bucket e.1 := by
  rcases h.mem.mp he with hu | hv | hx
  · have hc := h.checks _ hu
    obtain ⟨c, r⟩ := e
    cases c with
    | redis c => cases c <;> simp [Call.stage, Expected] at hc ⊢
    | _ => trivial
  · rcases h.counting with rfl | ⟨count, hc⟩
    · cases hv
    · have hn : ∀ now, ⟨.clock, now⟩ ∈ v → minuteBucket now = bucket :=
        fun now hm ↦ hp ⟨.clock, now⟩ (h.mem.mpr (.inr (.inl hm)))
      cases hc with
      | failed now | next now | first now | unexpired now =>
        have hb := hn now List.mem_cons_self
        subst hb
        revert hv
        simp only [List.mem_cons, List.not_mem_nil, or_false]
        rintro (rfl | rfl | rfl) <;> simp [Expected]
  · have hl := h.later _ hx
    obtain ⟨c, r⟩ := e
    cases c with
    | redis c => cases c <;> simp [Later, Expected] at hl ⊢; exact hl
    | _ => trivial

/-- The count of an enforcement is the one it injects. -/
theorem Ordered.injected_eq {key : String} {n : Int}
    (he : ⟨.redis (.incr key), .ok n⟩ ∈ t) : injected v = some n := by
  rcases h.mem.mp he with hu | hv | hx
  · cases h.checks _ hu with
    | tail _ hc => cases hc with
      | tail _ hc => cases hc
  · rcases h.counting with rfl | ⟨count, hc⟩
    · cases hv
    · rw [hc.injected]
      cases hc with
      | failed => simp at hv
      | next now m =>
        simp only [List.mem_cons, List.not_mem_nil, or_false, reduceCtorEq, false_or,
          Sigma.mk.injEq, Call.redis.injEq, Redis.Command.incr.injEq, false_and] at hv
        obtain ⟨rfl, hv⟩ := hv
        cases hv
        rfl
      | first now b =>
        simp only [List.mem_cons, List.not_mem_nil, or_false, reduceCtorEq, false_or,
          Sigma.mk.injEq, Call.redis.injEq, Redis.Command.incr.injEq, false_and] at hv
        obtain ⟨rfl, hv⟩ := hv
        cases hv
        rfl
      | unexpired now cls =>
        -- the time to live was set
        obtain ⟨b, hb⟩ := hp ⟨.redis (.expire (rateKey s.request.agentId (minuteBucket now)) 120),
          .error cls⟩ (h.mem.mpr (.inr (.inl (by simp))))
        cases hb
  · exact (h.later _ hx).elim

/-- What an enforcement posts after it counted carries the count. -/
theorem Ordered.posted {key : String} {n : Int} (he : ⟨.redis (.incr key), .ok n⟩ ∈ t)
    {url : String} {body : Value} {reply : HttpReply} (hb : ⟨.post url body, reply⟩ ∈ t) :
    body = opaInput (s.request.withCount n) := by
  have hi := h.injected_eq hp he
  rcases h.mem.mp hb with hu | hv | hx
  · simpa [Call.stage] using h.checks _ hu
  · rcases h.counting with rfl | ⟨count, hc⟩
    · cases hv
    · simpa [Call.stage] using hc.within _ hv
  · have hl := h.later _ hx
    rwa [ActionRequest.sent, hi] at hl

omit hp

/-- An enforcement counts at most once. -/
theorem Ordered.once : t.countP (fun e ↦ (increment? e).isSome) ≤ 1 := by
  have hu : u.countP (fun e ↦ (increment? e).isSome) = 0 := by
    rw [List.countP_eq_zero]
    intro e he hs
    have hc := h.checks e he
    unfold increment? at hs
    split at hs
    · simp [Call.stage] at hc
    · cases hs
  have hx : x.countP (fun e ↦ (increment? e).isSome) = 0 := by
    rw [List.countP_eq_zero]
    intro e he hs
    have hl := h.later e he
    unfold increment? at hs
    split at hs
    · exact hl
    · cases hs
  rw [h.split, List.countP_append, List.countP_append, hu, hx]
  rcases h.counting with rfl | ⟨count, hc⟩
  · simp
  · cases hc <;> simp [increment?]

end
end

/-! ### One minute -/

/-- A Redis server and the time. -/
structure Minute where
  store : Redis.Store
  now : Nat

/-- The replies within a minute: Redis is reachable and executes the commands, the clock shows
the time, and the other services answer anything. -/
def Minute.Answers (w : Minute) : (c : Call) → c.Reply → Minute → Prop
  | .connect, r, w' => r = .ok () ∧ w' = w
  | .redis c, r, w' =>
    r = (Redis.exec w.now c w.store).1.mapError (fun _ ↦ "ResponseError") ∧
      w' = ⟨(Redis.exec w.now c w.store).2, w.now⟩
  | .clock, r, w' => r = w.now ∧ w' = w
  | _, _, w' => w' = w

/-- The world of one minute: time passes, but the minute does not end. -/
def minute (ι : Type) (bucket : Nat) : World ι Call Call.Reply Minute where
  answer w _ c r w' := w.Answers c r w'
  background w w' := w'.store = w.store ∧ w.now ≤ w'.now ∧ minuteBucket w'.now = bucket

/-- The count that an increment of the given key answers. -/
def countOn (key : String) : Event → Option Int
  | ⟨.redis (.incr key'), .ok n⟩ => if key' = key then some n else none
  | _ => none

/-- The counts under a key in a trace, with the enforcements they were answered to. -/
def injections {ι : Type} (key : String) (t : List (ι × Event)) : List (ι × Int) :=
  t.filterMap fun e ↦ (countOn key e.2).map (e.1, ·)

private theorem injections_append {ι : Type} (key : String) (t : List (ι × Event)) (i : ι)
    (e : Event) :
    injections key (t ++ [(i, e)]) =
      injections key t ++ ((countOn key e).map (i, ·)).toList := by
  rw [injections, injections, List.filterMap_append]
  cases h : countOn key e <;> simp [h]

/-- The key holds the count `n` until the minute is over. -/
def HoldsCount (w : Minute) (key : String) (bucket n : Nat) : Prop :=
  if n = 0 then w.store.live w.now key = none
  else ∃ expires, w.store key = some ⟨.text (toString (n : Int)), expires⟩ ∧
    ∀ x, expires = some x → (bucket + 1) * 60000000 ≤ x

/-- The counts are the first positive numbers. -/
def counting (n : Nat) : List Int := (List.range n).map fun (k : Nat) ↦ (k : Int) + 1

private theorem counting_succ (n : Nat) : counting (n + 1) = counting n ++ [(n : Int) + 1] := by
  simp [counting, List.range_succ]

private theorem HoldsCount.of_same {w w' : Minute} {key : String} {bucket n : Nat}
    (h : HoldsCount w key bucket n) (hs : w'.store key = w.store key) (hn : w.now ≤ w'.now) :
    HoldsCount w' key bucket n := by
  unfold HoldsCount at h ⊢
  split
  · next hz =>
    rw [if_pos hz] at h
    rw [Redis.live_congr hs]
    exact Redis.live_eq_none_mono h hn
  · next hz =>
    rw [if_neg hz] at h
    rwa [hs]

private theorem lt_of_minuteBucket {now bucket x : Nat} (h : minuteBucket now = bucket)
    (hx : (bucket + 1) * 60000000 ≤ x) : now < x := by
  rw [minuteBucket] at h
  omega

/-- The counter of a minute answers the next number, or is full and stays as it is. -/
theorem HoldsCount.incr {w : Minute} {key : String} {bucket n : Nat}
    (h : HoldsCount w key bucket n) (hb : minuteBucket w.now = bucket) :
    ((Redis.incr w.store w.now key).1 = .ok ((n : Int) + 1) ∧
        HoldsCount ⟨(Redis.incr w.store w.now key).2, w.now⟩ key bucket (n + 1)) ∨
      ((∃ e, (Redis.incr w.store w.now key).1 = .error e) ∧
        (Redis.incr w.store w.now key).2 = w.store) := by
  unfold HoldsCount at h
  split at h
  · next hz =>
    subst hz
    rw [Redis.incr_of_absent h]
    refine .inl ⟨rfl, ?_⟩
    rw [HoldsCount, if_neg (Nat.succ_ne_zero _)]
    exact ⟨none, Redis.Store.put_self .., nofun⟩
  · obtain ⟨expires, hk, hx⟩ := h
    have hl : w.store.live w.now key = _ :=
      Redis.live_of_expires hk fun x he ↦ lt_of_minuteBucket hb (hx x he)
    rw [Redis.incr_of_counter hl]
    split
    · refine .inl ⟨rfl, ?_⟩
      rw [HoldsCount, if_neg (Nat.succ_ne_zero _)]
      exact ⟨expires, by simp, hx⟩
    · exact .inr ⟨⟨_, rfl⟩, rfl⟩

/-- Setting the time to live of the counter keeps it for the minute. -/
theorem HoldsCount.expire {w : Minute} {key : String} {bucket n : Nat}
    (h : HoldsCount w key bucket n) (hb : minuteBucket w.now = bucket) :
    HoldsCount ⟨(Redis.expire w.store w.now key 120).2, w.now⟩ key bucket n := by
  unfold HoldsCount at h ⊢
  split
  · next hz =>
    rw [if_pos hz] at h
    rw [Redis.expire_of_absent h]
    exact h
  · next hz =>
    rw [if_neg hz] at h
    obtain ⟨expires, hk, hx⟩ := h
    have hl : w.store.live w.now key = _ :=
      Redis.live_of_expires hk fun x he ↦ lt_of_minuteBucket hb (hx x he)
    rw [Redis.expire_of_live hl (by decide)]
    refine ⟨_, Redis.Store.put_self .., ?_⟩
    intro x he
    cases he
    rw [minuteBucket] at hb
    have : (120 : Int).toNat = 120 := rfl
    omega

/-- Agents have different keys in a minute. -/
theorem rateKey_inj {a b : String} {bucket : Nat} (h : rateKey a bucket = rateKey b bucket) :
    a = b := by
  simp only [rateKey] at h
  have h' := (String.append_left_inj _).mp h
  exact (String.append_right_inj _).mp ((String.append_left_inj _).mp h')

/-! ### Interleavings -/

section
variable {ι : Type} [DecidableEq ι] {rt : Runtime} {states : ι → State} {bucket : Nat}
  {w₀ w : Minute} {t : List (ι × Event)} {p : ι → Prog Call Call.Reply (Except PyExn Unit × State)}

/-- An unfinished enforcement of a minute is the beginning of an ordered one. -/
theorem ordered_of_steps {s : State} {t : List Event}
    {q : Prog Call Call.Reply (Except PyExn Unit × State)}
    (h : Prog.Steps (enforce rt s) t q) (hp : ∀ e ∈ t, Punctual bucket e) :
    ∃ t' u v x, Ordered s (t ++ t') u v x ∧ ∀ e ∈ t ++ t', Punctual bucket e := by
  obtain ⟨t', ⟨out, s'⟩, hr, hs⟩ :=
    h.exists_run (services (decided "ALLOW") (bucket * 60000000) [])
  have he : Enforced rt s (t ++ t') out := enforce_run hr
  obtain ⟨u, v, x, ho⟩ := he.ordered
  refine ⟨t', u, v, x, ho, List.forall_mem_append.mpr ⟨hp, ?_⟩⟩
  rintro ⟨c, r⟩ he
  have hc := hs _ he
  cases c with
  | clock =>
    change r = bucket * 60000000 at hc
    rw [hc]
    exact Nat.mul_div_cancel _ (by decide)
  | redis c =>
    cases c with
    | expire => exact ⟨_, hc⟩
    | _ => trivial
  | _ => trivial

/-- What holds along an interleaving within a minute: the counts under a key are the first
numbers, and the key holds the last of them. -/
structure Counted (key : String) (bucket : Nat) (t : List (ι × Event)) (w : Minute) : Prop where
  minute : minuteBucket w.now = bucket
  punctual : ∀ i, ∀ e ∈ eventsOf i t, Punctual bucket e
  counts : (injections key t).map Prod.snd = counting (injections key t).length
  stored : HoldsCount w key bucket (injections key t).length

private theorem Minute.Answers.punctual {c : Call} {r : c.Reply} {w' : Minute}
    (h : w.Answers c r w') (hw : minuteBucket w.now = bucket) : Punctual bucket ⟨c, r⟩ := by
  cases c with
  | clock =>
    obtain ⟨rfl, -⟩ := h
    exact hw
  | redis c =>
    cases c with
    | expire key seconds =>
      obtain ⟨rfl, -⟩ := h
      obtain ⟨b, hb⟩ : ∃ b, (Redis.expire w.store w.now key seconds).1 = .ok b :=
        Redis.expire_ok seconds
      refine ⟨b, ?_⟩
      show ((Redis.expire w.store w.now key seconds).1).mapError _ = _
      rw [hb]
      rfl
    | _ => trivial
  | _ => trivial

private theorem punctual_append {i : ι} {e : Event} (h : ∀ j, ∀ d ∈ eventsOf j t, Punctual bucket d)
    (he : Punctual bucket e) : ∀ j, ∀ d ∈ eventsOf j (t ++ [(i, e)]), Punctual bucket d := by
  intro j d hd
  rw [eventsOf_append] at hd
  rcases List.mem_append.mp hd with hd | hd
  · exact h j d hd
  · by_cases hj : i = j
    · subst hj
      rw [eventsOf_singleton_self, List.mem_singleton] at hd
      exact hd ▸ he
    · rw [eventsOf_singleton_of_ne hj] at hd
      cases hd

private theorem Counted.idle {key : String} {w' : Minute} (h : Counted key bucket t w) (i : ι)
    {e : Event} (hp : Punctual bucket e) (hn : w'.now = w.now) (hc : countOn key e = none)
    (hs : HoldsCount w' key bucket (injections key t).length) :
    Counted key bucket (t ++ [(i, e)]) w' := by
  have hi : injections key (t ++ [(i, e)]) = injections key t := by
    rw [injections_append, hc]
    simp
  exact ⟨hn ▸ h.minute, punctual_append h.punctual hp, hi ▸ h.counts, hi ▸ hs⟩

/-- One call keeps the counter exact. -/
theorem Counted.call {key : String} {w' : Minute} {a : String}
    (hk : key = rateKey a bucket) (h : Counted key bucket t w) (i : ι) {c : Call} {r : c.Reply}
    (hc : Expected (states i).request.agentId bucket c) (ha : w.Answers c r w') :
    Counted key bucket (t ++ [(i, ⟨c, r⟩)]) w' := by
  have hp := ha.punctual h.minute
  cases c with
  | connect =>
    obtain ⟨-, rfl⟩ := ha
    exact h.idle i hp rfl rfl h.stored
  | clock =>
    obtain ⟨-, rfl⟩ := ha
    exact h.idle i hp rfl rfl h.stored
  | post | cedar | uuid4 | approvalClient | approvalTtl | tool =>
    cases ha
    exact h.idle i hp rfl rfl h.stored
  | redis c =>
    obtain ⟨hr, rfl⟩ := ha
    cases c with
    | get | sadd | srem | smembers | set | del => exact hc.elim
    | sismember => exact h.idle i hp rfl rfl h.stored
    | setex key' =>
      obtain ⟨requestId, rfl⟩ := hc
      exact h.idle i hp rfl rfl (h.stored.of_same
        (Redis.setex_of_ne (hk ▸ rateKey_ne_approval a bucket requestId)) le_rfl)
    | expire key' seconds =>
      obtain ⟨-, rfl⟩ := hc
      by_cases he : key' = key
      · subst he
        exact h.idle i hp rfl rfl (h.stored.expire h.minute)
      · exact h.idle i hp rfl rfl (h.stored.of_same (Redis.expire_of_ne (Ne.symm he)) le_rfl)
    | incr key' =>
      by_cases he : key' = key
      · subst he
        rcases h.stored.incr h.minute with ⟨hn, hs⟩ | ⟨⟨e, hn⟩, hs⟩
        · -- the next number is counted
          have hr' : r = .ok (((injections key' t).length : Int) + 1) := by
            rw [hr]
            show ((Redis.incr w.store w.now key').1).mapError _ = _
            rw [hn]
            rfl
          subst hr'
          have hi : injections key' (t ++ [(i, ⟨.redis (.incr key'),
              .ok (((injections key' t).length : Int) + 1)⟩)]) =
                injections key' t ++ [(i, ((injections key' t).length : Int) + 1)] := by
            rw [injections_append]
            simp [countOn]
          refine ⟨h.minute, punctual_append h.punctual hp, ?_, ?_⟩
          · rw [hi, List.map_append, h.counts, List.length_append]
            exact (counting_succ _).symm
          · rw [hi, List.length_append]
            exact hs
        · -- the counter is full
          have hr' : r = .error "ResponseError" := by
            rw [hr]
            show ((Redis.incr w.store w.now key').1).mapError _ = _
            rw [hn]
            rfl
          subst hr'
          refine h.idle i hp rfl rfl (h.stored.of_same ?_ le_rfl)
          exact congrFun hs _
      · have hn : countOn key ⟨.redis (.incr key'), r⟩ = none := by
          cases r with
          | ok n => exact if_neg he
          | error => rfl
        exact h.idle i hp rfl hn (h.stored.of_same (Redis.incr_of_ne (Ne.symm he)) le_rfl)

/-- The counter of a minute is exact in every interleaving. -/
theorem reach_counted {a : String}
    (h : Reach (minute ι bucket) (fun i ↦ enforce rt (states i)) w₀ t p w)
    (hw : minuteBucket w₀.now = bucket) (hk : w₀.store.live w₀.now (rateKey a bucket) = none) :
    Counted (rateKey a bucket) bucket t w := by
  refine h.invariant ⟨hw, by simp [eventsOf], rfl, hk⟩ ?_ ?_
  · intro t w w' i c k r hs hc ha
    have hs' := hs.trans (.call r (.refl _))
    have hp : ∀ e ∈ eventsOf i t ++ [⟨c, r⟩], Punctual bucket e :=
      List.forall_mem_append.mpr ⟨hc.punctual i, by simpa using ha.punctual hc.minute⟩
    obtain ⟨t', u, v, x, ho, hp'⟩ := ordered_of_steps hs' hp
    have hx : Expected (states i).request.agentId bucket c :=
      ho.expected hp' (e := ⟨c, r⟩) (by simp)
    exact hc.call rfl i hx ha
  · rintro t w w' hc ⟨hst, hn, hb⟩
    exact ⟨hb, hc.punctual, hc.counts, hc.stored.of_same (congrFun hst _) hn⟩

/-- An enforcement that was counted belongs to the agent of the key, posts its count, and is
counted once. -/
theorem Counted.injection {a : String} {i : ι} {n : Int}
    (hc : Counted (rateKey a bucket) bucket t w)
    (hs : Prog.Steps (enforce rt (states i)) (eventsOf i t) (p i))
    (hm : (i, n) ∈ injections (rateKey a bucket) t) :
    (states i).request.agentId = a ∧
      ∀ url body reply, (i, ⟨.post url body, reply⟩) ∈ t →
        body = opaInput ((states i).request.withCount n) := by
  obtain ⟨t', u, v, x, ho, hp⟩ := ordered_of_steps hs (hc.punctual i)
  obtain ⟨⟨j, e⟩, he, hj⟩ := List.mem_filterMap.mp hm
  obtain ⟨n', hn, hi⟩ := Option.map_eq_some_iff.mp hj
  cases hi
  change countOn (rateKey a bucket) e = some n at hn
  have he' : ∃ key, e = ⟨.redis (.incr key), .ok n⟩ ∧ key = rateKey a bucket := by
    unfold countOn at hn
    split at hn
    · split at hn
      · next hk =>
        cases hn
        exact ⟨_, rfl, hk⟩
      · cases hn
    · cases hn
  obtain ⟨key, rfl, rfl⟩ := he'
  have hmem := List.mem_append_left t' (mem_eventsOf.mpr he)
  refine ⟨(rateKey_inj (ho.expected hp hmem)).symm, fun url body reply hb ↦ ?_⟩
  exact ho.posted hp hmem (List.mem_append_left t' (mem_eventsOf.mpr hb))

private theorem count_injections_le (key : String) (i : ι) (t : List (ι × Event)) :
    ((injections key t).map Prod.fst).count i ≤
      (eventsOf i t).countP fun e ↦ (increment? e).isSome := by
  have hc : ∀ e n, countOn key e = some n → (increment? e).isSome = true := by
    intro e n hn
    unfold countOn at hn
    split at hn
    · rfl
    · cases hn
  induction t using List.reverseRecOn with
  | nil => rfl
  | append_singleton t e ih =>
    obtain ⟨j, e⟩ := e
    rw [injections_append, List.map_append, List.count_append, eventsOf_append, List.countP_append]
    apply Nat.add_le_add ih
    cases hn : countOn key e with
    | none => simp
    | some n =>
      by_cases hj : j = i
      · subst hj
        simp [hc e n hn]
      · simp [hj]

end

/-! ### The limit -/

/-- The limit that a request declares, or the default of the policy. -/
def Limit (request : ActionRequest) (m : Int) : Prop :=
  request.context.lookup "max_actions_per_minute" = some (.int m) ∨
    (request.context.lookup "max_actions_per_minute" = none ∧ m = 30)

/-- A counted request is within the limit when its count is below it. -/
theorem holds_withinRateLimit_withCount {request : ActionRequest} {m : Int}
    (hm : Limit request m) (count now : Int) :
    (RateLimit.withinRateLimit ⟨(request.withCount count).dump, now⟩).holds = true ↔
      count < m := by
  have hc : Query.ref ⟨(request.withCount count).dump, now⟩
      ["context", "current_action_count_per_minute"] = .value (.int count) := by
    simp [Query.ref, Value.path?_cons, Value.get?_obj, ActionRequest.withCount]
  have hl : Query.ref ⟨(request.withCount count).dump, now⟩ ["context", "max_actions_per_minute"] =
      .ofOption (request.context.lookup "max_actions_per_minute") := by
    simp [Query.ref, Value.path?_cons, Value.get?_obj, ActionRequest.withCount,
      Value.lookup_setMember_ne]
  have hx : RateLimit.maxActionsPerMinute ⟨(request.withCount count).dump, now⟩ =
      .value (.int m) := by
    rw [RateLimit.maxActionsPerMinute, hl]
    rcases hm with hm | ⟨hm, rfl⟩ <;> rw [hm] <;> rfl
  have hn : Eval.naf (.value (.int count)) = .undefined := rfl
  rw [RateLimit.holds_withinRateLimit, RateLimit.uncounted, RateLimit.belowLimit, hc, hx, hn]
  by_cases hlt : count < m <;> simp [lt, Eval.succeeds, compare_lt_iff_lt, hlt]

/-- What is promised of the enforcements of an agent in a minute, under the limit `m`: their
counts are the first numbers, each is counted once, posts its count, and is within the limit
exactly when its count does not exceed it. -/
structure RateLaw {ι : Type} (requests : ι → ActionRequest) (key : String) (m : Int)
    (t : List (ι × Event)) : Prop where
  counts : (injections key t).map Prod.snd = counting (injections key t).length
  once : ((injections key t).map Prod.fst).Nodup
  posted : ∀ i n, (i, n) ∈ injections key t → ∀ url body reply,
    (i, ⟨.post url body, reply⟩) ∈ t → body = opaInput ((requests i).withCount n)
  within : ∀ i n, (i, n) ∈ injections key t → ∀ now,
    ((RateLimit.withinRateLimit ⟨((requests i).withCount n).dump, now⟩).holds = true ↔ n ≤ m)
  total : ∀ now, (((injections key t).countP fun e ↦
    (RateLimit.withinRateLimit ⟨((requests e.1).withCount e.2).dump, now⟩).holds : Nat) : Int) =
      min ((injections key t).length : Int) m

section
variable {ι : Type} [DecidableEq ι] {rt : Runtime} {states : ι → State} {bucket : Nat}
  {w₀ w : Minute} {t : List (ι × Event)} {p : ι → Prog Call Call.Reply (Except PyExn Unit × State)}
  {a : String} {m : Int}

/-- In every interleaving within a minute the promise is kept exactly while the agent has
made fewer calls than its limit: the comparison admits one less. -/
theorem rateLaw_iff
    (h : Reach (minute ι bucket) (fun i ↦ enforce rt (states i)) w₀ t p w)
    (hw : minuteBucket w₀.now = bucket)
    (hk : w₀.store.live w₀.now (rateKey a bucket) = none)
    (hl : ∀ i, (states i).request.agentId = a → Limit (states i).request m) (hm : 1 ≤ m) :
    RateLaw (fun i ↦ (states i).request) (rateKey a bucket) m t ↔
      ((injections (rateKey a bucket) t).length : Int) < m := by
  have hc := reach_counted h hw hk
  have hi : ∀ i n, (i, n) ∈ injections (rateKey a bucket) t → _ := fun i n hin ↦
    hc.injection (h.steps i) hin
  have hx : ∀ i n, (i, n) ∈ injections (rateKey a bucket) t → ∀ now,
      ((RateLimit.withinRateLimit ⟨((states i).request.withCount n).dump, now⟩).holds = true ↔
        n < m) := fun i n hin now ↦
    holds_withinRateLimit_withCount (hl i (hi i n hin).1) n now
  have hn : ∀ n, n ∈ (injections (rateKey a bucket) t).map Prod.snd ↔
      1 ≤ n ∧ n ≤ ((injections (rateKey a bucket) t).length : Int) := by
    intro n
    rw [hc.counts, counting, List.mem_map]
    constructor
    · rintro ⟨k, hk', rfl⟩
      have := List.mem_range.mp hk'
      omega
    · rintro ⟨h₁, h₂⟩
      exact ⟨(n - 1).toNat, List.mem_range.mpr (by omega), by omega⟩
  constructor
  · intro hr
    by_contra hge
    rw [not_lt] at hge
    -- the call whose count is the limit is refused
    obtain ⟨⟨i, n⟩, hin, rfl⟩ := List.mem_map.mp ((hn m).mpr ⟨hm, hge⟩)
    have hle := (hr.within i n hin 0).mpr le_rfl
    exact lt_irrefl _ ((hx i n hin 0).mp hle)
  · intro hlt
    have hb : ∀ i n, (i, n) ∈ injections (rateKey a bucket) t → n < m := by
      intro i n hin
      have := ((hn n).mp (List.mem_map.mpr ⟨(i, n), hin, rfl⟩)).2
      omega
    refine ⟨hc.counts, ?_, fun i n hin ↦ (hi i n hin).2, fun i n hin now ↦ ?_, fun now ↦ ?_⟩
    · rw [List.nodup_iff_count_le_one]
      intro i
      obtain ⟨t', u, v, x, ho, -⟩ := ordered_of_steps (h.steps i) (hc.punctual i)
      refine (count_injections_le _ i t).trans (le_trans ?_ ho.once)
      rw [List.countP_append]
      exact Nat.le_add_right ..
    · rw [hx i n hin now]
      exact ⟨fun hl ↦ hl.le, fun _ ↦ hb i n hin⟩
    · rw [List.countP_eq_length.mpr fun e he ↦ (hx e.1 e.2 he now).mpr (hb e.1 e.2 he),
        min_eq_left hlt.le]

end

/-- An object request of an agent with the given limit, on a connected enforcement point. -/
def limited (m : Int) : State where
  pep := ⟨"http://localhost:8181", true⟩
  request := { getObject with context := [("max_actions_per_minute", .int m)] }

/-- The first calls of that request in the first minute: it is not suspended and counted. -/
def firstCalls : List (Unit × Event) := [
  ((), ⟨.redis (.sismember "identities:suspended" "agent-infra-001"), .ok false⟩),
  ((), ⟨.clock, (0 : Nat)⟩),
  ((), ⟨.redis (.incr (rateKey "agent-infra-001" 0)), .ok 1⟩)]

/-- A server without keys makes these calls possible. -/
theorem reach_firstCalls (m : Int) : ∃ p w, Reach (minute Unit 0)
    (fun _ ↦ enforce asciiRuntime (limited m)) ⟨fun _ ↦ none, 0⟩ firstCalls p w := by
  have h₀ : Reach (minute Unit 0) (fun _ ↦ enforce asciiRuntime (limited m)) ⟨fun _ ↦ none, 0⟩
    [] _ _ := .start
  have h₁ : Reach (minute Unit 0) (fun _ ↦ enforce asciiRuntime (limited m)) ⟨fun _ ↦ none, 0⟩
      _ _ ⟨fun _ ↦ none, 0⟩ :=
    h₀.call () (c := .redis (.sismember "identities:suspended" "agent-infra-001")) rfl (.ok false)
      ⟨rfl, rfl⟩
  have h₂ := h₁.call () (c := .clock) rfl (0 : Nat) ⟨rfl, rfl⟩
  have h₃ := h₂.call () (c := .redis (.incr (rateKey "agent-infra-001" 0))) rfl (.ok 1) ⟨rfl, rfl⟩
  exact ⟨_, _, h₃⟩

/-- Under a limit of two the first call is within the limit. -/
theorem rateLaw_first :
    RateLaw (fun _ : Unit ↦ (limited 2).request) (rateKey "agent-infra-001" 0) 2 firstCalls := by
  obtain ⟨p, w, h⟩ := reach_firstCalls 2
  exact (rateLaw_iff (m := 2) h rfl rfl (fun _ _ ↦ .inl rfl) (by decide)).mpr (by decide)

/-- Under a limit of one the first call is counted as one and refused. -/
theorem first_call_refused :
    (∃ p w, Reach (minute Unit 0) (fun _ ↦ enforce asciiRuntime (limited 1))
        ⟨fun _ ↦ none, 0⟩ firstCalls p w) ∧
      injections (rateKey "agent-infra-001" 0) firstCalls = [((), 1)] ∧
      (RateLimit.withinRateLimit ⟨((limited 1).request.withCount 1).dump, 0⟩).holds = false ∧
      ¬ RateLaw (fun _ : Unit ↦ (limited 1).request) (rateKey "agent-infra-001" 0) 1
        firstCalls := by
  have hi : injections (rateKey "agent-infra-001" 0) firstCalls = [((), 1)] := by decide
  have hf : (RateLimit.withinRateLimit ⟨((limited 1).request.withCount 1).dump, 0⟩).holds =
      false := by decide
  refine ⟨reach_firstCalls 1, hi, hf, fun h ↦ ?_⟩
  have hx := (h.within () 1 (by rw [hi]; exact List.mem_singleton_self _) 0).mpr le_rfl
  cases hf.symm.trans hx

end NhiSentinel.Pep
